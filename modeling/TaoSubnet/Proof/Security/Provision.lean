import TaoSubnet.Proof.Security.BlindExtraction
import TaoSubnet.Proof.Security.Grading
import TaoSubnet.Proof.Security.ReadBack
import TaoSubnet.Security.TargetApp

/-!
# The target and the answer key

The environment that `target_env` makes of a challenge is read back as that challenge, so that the
target serves, and the grader pays for, the same endpoints.
-/

namespace TaoSubnet

open Py

/-! ## The list of endpoints, as text -/

theorem toNat_digitChar {d : Nat} (h : d < 16) :
    (if d < 10 then Char.ofNat (48 + d) else Char.ofNat (87 + d)).toNat = Json.hexDigit d := by
  revert d
  decide

theorem map_hex2 (n : Nat) :
    (hex2 n).map Char.toNat = [Json.hexDigit (n / 16 % 16), Json.hexDigit (n % 16)] := by
  show [_, _] = _
  rw [toNat_digitChar (Nat.mod_lt _ (by decide)), toNat_digitChar (Nat.mod_lt _ (by decide))]

theorem map_unitEscape (n : Nat) :
    ('\\' :: 'u' :: (hex2 (n / 256) ++ hex2 n)).map Char.toNat = Json.unitText n := by
  show 92 :: 117 :: (hex2 (n / 256) ++ hex2 n).map Char.toNat = _
  rw [List.map_append, map_hex2, map_hex2, Json.unitText, Nat.div_div_eq_div_mul]
  rfl

/-- Either escape of a character is the same text. -/
theorem map_dumpsChar (c : Char) : (dumpsChar c).map Char.toNat = Json.charText c.toNat := by
  have hcode {d : Char} (hne : c ≠ d) : c.toNat ≠ d.toNat := fun h => hne (Char.toNat_inj.mp h)
  by_cases hnamed : c ∈ ['"', '\\', '\n', '\r', '\t']
  · simp only [List.mem_cons, List.not_mem_nil, or_false] at hnamed
    rcases hnamed with rfl | rfl | rfl | rfl | rfl <;> rfl
  · simp only [List.mem_cons, List.not_mem_nil, or_false, not_or] at hnamed
    obtain ⟨hquote, hslash, hn, hr, ht⟩ := hnamed
    have h34 : c.toNat ≠ 34 := hcode hquote
    have h92 : c.toNat ≠ 92 := hcode hslash
    have h10 : c.toNat ≠ 10 := hcode hn
    have h13 : c.toNat ≠ 13 := hcode hr
    have h9 : c.toNat ≠ 9 := hcode ht
    unfold dumpsChar Json.charText
    dsimp only
    rw [if_neg hquote, if_neg hslash, if_neg hn, if_neg hr, if_neg ht, if_neg h34, if_neg h92,
      if_neg h10, if_neg h13, if_neg h9]
    by_cases h8 : c.toNat = 8
    · rw [h8]
      rfl
    by_cases h12 : c.toNat = 12
    · rw [h12]
      rfl
    rw [if_neg h8, if_neg h12, if_neg h12, if_neg h8]
    have hvisible : (32 ≤ c.toNat ∧ c.toNat < 127) ↔ (32 ≤ c.toNat ∧ c.toNat ≤ 126) := by omega
    by_cases hplain : 32 ≤ c.toNat ∧ c.toNat < 127
    · rw [if_pos hplain, if_pos (hvisible.mp hplain)]
      rfl
    rw [if_neg hplain, if_neg (fun h => hplain (hvisible.mpr h))]
    by_cases hunit : c.toNat < 0x10000
    · rw [if_pos hunit, if_pos hunit, map_unitEscape]
    · rw [if_neg hunit, if_neg hunit, List.map_append, map_unitEscape, map_unitEscape]

theorem ofString_ofList (l : List Char) : PyStr.ofString (String.ofList l) = l.map Char.toNat := by
  unfold PyStr.ofString
  rw [String.toList_ofList]

/-- The text of a list of strings is that of `json.dumps`. -/
theorem dumps_dumpsStrList (floatText : PyFloat → PyStr) (l : List String) :
    Json.dumps floatText (.arr ((l.map PyStr.ofString).map .str)) =
      .ok (PyStr.ofString (dumpsStrList l)) := by
  have hquoted (s : String) :
      PyStr.ofString ("\"" ++ String.ofList (s.toList.flatMap dumpsChar) ++ "\"") =
        Json.strText (PyStr.ofString s) := by
    have hchars : (s.toList.flatMap dumpsChar).map Char.toNat =
        (PyStr.ofString s).flatMap Json.charText := by
      unfold PyStr.ofString
      rw [List.map_flatMap, List.flatMap_map]
      simp only [map_dumpsChar]
    rw [ofString_append, ofString_append, ofString_ofList (s.toList.flatMap dumpsChar), hchars]
    rfl
  have hitems : Json.dumpsItems floatText ((l.map PyStr.ofString).map .str) =
      .ok (PyStr.ofString (", ".intercalate (l.map fun s =>
        "\"" ++ String.ofList (s.toList.flatMap dumpsChar) ++ "\""))) := by
    induction l with
    | nil => rfl
    | cons s rest ih =>
      cases rest with
      | nil =>
        show _ = Except.ok (PyStr.ofString (", ".intercalate [_]))
        rw [String.intercalate_singleton, hquoted]
        rfl
      | cons next rest =>
        have htext : Json.dumpsItems floatText (((s :: next :: rest).map PyStr.ofString).map .str) =
            (do return Json.strText (PyStr.ofString s) ++ 44 :: 32 ::
              (← Json.dumpsItems floatText (((next :: rest).map PyStr.ofString).map .str))) := rfl
        rw [htext, ih]
        show _ = Except.ok (PyStr.ofString (", ".intercalate (_ :: _ :: _)))
        rw [String.intercalate_cons_cons, ofString_append, ofString_append, hquoted,
          List.append_assoc]
        rfl
  rw [Json.dumps, hitems]
  unfold dumpsStrList
  rw [ofString_append, ofString_append]
  rfl

theorem scalar_of_mem_ofString {s : String} {c : Nat} (h : c ∈ PyStr.ofString s) :
    c < 0xD800 ∨ (0xDFFF < c ∧ c < 0x110000) := by
  obtain ⟨d, -, rfl⟩ := List.mem_map.mp h
  have hvalid := d.valid
  simp only [UInt32.isValidChar, Nat.isValidChar] at hvalid
  show d.val.toNat < 0xD800 ∨ (0xDFFF < d.val.toNat ∧ d.val.toNat < 0x110000)
  omega

theorem unsplit_ofString (s : String) : Json.Unsplit (PyStr.ofString s) := by
  apply unsplit_of_storable
  unfold storable
  rw [List.all_eq_true]
  intro c hc
  have hscalar := scalar_of_mem_ofString hc
  simpa only [Bool.or_eq_true, Bool.and_eq_true, decide_eq_true_eq] using hscalar

theorem loads_dumpsStrList {limit : Nat} (hlimit : 1 ≤ limit) (l : List String) :
    Json.loadsText limit (PyStr.ofString (dumpsStrList l)) =
      .ok (.arr ((l.map PyStr.ofString).map .str)) := by
  have hlegible : ∀ s ∈ l.map PyStr.ofString, Json.Unsplit s := by
    intro s hs
    obtain ⟨t, -, rfl⟩ := List.mem_map.mp hs
    exact unsplit_ofString t
  have hdepth := Json.depth_strings (l.map PyStr.ofString)
  exact Json.loads_dumps (Json.legible_strings hlegible) (hdepth.trans_le hlimit)
    (dumps_dumpsStrList (fun _ => []) l)

/-! ## The configuration -/

/-- The environment of the container. -/
def envOf (challenge : Challenge) : List (PyStr × PyStr) :=
  (targetEnv challenge).map fun p => (PyStr.ofString p.1, PyStr.ofString p.2)

/-- The configuration that stands for a challenge. -/
def targetConfigOf (challenge : Challenge) : TargetConfig where
  canary := PyStr.ofString challenge.canary
  secretTable := PyStr.ofString challenge.secretTable
  secretColumn := PyStr.ofString challenge.secretColumn
  vulnEndpoint := PyStr.ofString challenge.vulnerableEndpoint
  vulnParam := PyStr.ofString challenge.vulnerableParameter
  allEndpoints :=
    .arr (((challenge.vulnerableEndpoint :: challenge.safeEndpoints).map PyStr.ofString).map .str)
  errorTrapEndpoint := PyStr.ofString challenge.errorTrapEndpoint
  variant := PyStr.ofString challenge.variant
  listenHost := PyStr.ofString "0.0.0.0"
  listenPort := TARGET_PORT

theorem getenv_envOf {challenge : Challenge} {key value : String} (default : String)
    (h : (targetEnv challenge).lookup key = some value) :
    getenv (envOf challenge) key default = PyStr.ofString value := by
  have hlookup (l : List (String × String)) :
      (l.map fun p => (PyStr.ofString p.1, PyStr.ofString p.2)).lookup (PyStr.ofString key) =
        (l.lookup key).map PyStr.ofString := by
    induction l with
    | nil => rfl
    | cons p rest ih =>
      obtain ⟨name, value⟩ := p
      rw [List.map_cons, List.lookup_cons, List.lookup_cons, ih]
      by_cases hkey : key = name
      · subst hkey
        rw [beq_self_eq_true, beq_self_eq_true]
        rfl
      · have hname : (key == name) = false := beq_eq_false_iff_ne.mpr hkey
        have htext : (PyStr.ofString key == PyStr.ofString name) = false :=
          beq_eq_false_iff_ne.mpr fun h => hkey (ofString_injective h)
        dsimp only
        rw [hname, htext]
  unfold getenv envOf
  rw [hlookup, h]
  rfl

/-- What the target reads from its environment is the challenge it was made of. -/
theorem readConfig_envOf {py : Interpreter} (hu : KnowsDigits py.unicode)
    (hlimit : 1 ≤ py.recursionLimit) (challenge : Challenge) :
    readConfig py (envOf challenge) = .ok (targetConfigOf challenge) := by
  have hshort : tooLong 8000 = false := by decide +kernel
  have hwritten : intText 8000 = .ok (PyStr.ofString (toString TARGET_PORT)) := by
    unfold intText
    rw [hshort]
    rfl
  unfold readConfig
  rw [getenv_envOf _ rfl, getenv_envOf _ rfl, getenv_envOf _ rfl, getenv_envOf _ rfl,
    getenv_envOf _ rfl, getenv_envOf _ rfl, getenv_envOf _ rfl, getenv_envOf _ rfl,
    getenv_envOf _ rfl, getenv_envOf _ rfl]
  exact ok_bind (loads_dumpsStrList hlimit _) (ok_bind (toInt_intText hu hwritten) rfl)

/-! ## Who answers a request -/

inductive Handler
  | vulnerable
  | errorTrap
  | safe
  | unknown
  deriving DecidableEq

/-- The branch of `do_GET` that a path leads to. -/
def routeOf (config : TargetConfig) (path : PyStr) : Except TargetError Handler := do
  if path = rstripSlash config.vulnEndpoint then return .vulnerable
  else if path = rstripSlash config.errorTrapEndpoint then return .errorTrap
  else if path ∈ (← builtin (TargetApp.knownPaths config.allEndpoints)) then return .safe
  else return .unknown

/-- What the branch does. -/
def TargetApp.answer (app : TargetApp) (path : PyStr) (params : Dict PyStr (List PyStr)) :
    Handler → Except TargetError HttpResponse
  | .vulnerable => app.vulnerableSearch params
  | .errorTrap => app.errorTrap params
  | .safe => app.safeSearch path params
  | .unknown => app.json 404 (.obj [TargetApp.item "error" (.str (PyStr.ofString "no such endpoint"))])

theorem dispatch_eq (app : TargetApp) (path : PyStr) (params : Dict PyStr (List PyStr)) :
    app.dispatch path params = routeOf app.config path >>= app.answer path params := by
  unfold TargetApp.dispatch routeOf
  split
  · rfl
  · split
    · rfl
    · cases builtin (TargetApp.knownPaths app.config.allEndpoints) with
      | error e => rfl
      | ok paths =>
        show (if path ∈ paths then _ else _) = (if path ∈ paths then pure Handler.safe else
          pure Handler.unknown : Except TargetError Handler) >>= app.answer path params
        split
        · rfl
        · rfl

/-! ## The endpoints that are drawn -/

/-- A path of lower-case segments, the form that the candidates have. -/
def isPlainEndpoint (path : PyStr) : Bool :=
  path.head? == some 47 && path[1]? != some 47 && path.getLast? != some 47 &&
    path.all fun c => c == 47 || (97 ≤ c && c ≤ 122)

theorem plain_candidates :
    ∀ e ∈ CANDIDATE_ENDPOINTS, isPlainEndpoint (PyStr.ofString e) = true := by
  decide

section Drawn

variable (draws : Draws)

theorem mem_candidates {e : String} (h : e ∈ draws.vulnerable :: draws.safe) :
    e ∈ CANDIDATE_ENDPOINTS :=
  draws.shuffled.mem_iff.mp h

theorem nodup_endpoints : (draws.vulnerable :: draws.safe).Nodup :=
  draws.shuffled.nodup_iff.mpr (by decide)

theorem trap_mem_safe : draws.safe.get draws.trap ∈ draws.safe := List.get_mem _ _

theorem plain_drawn {e : String} (h : e ∈ draws.vulnerable :: draws.safe) :
    isPlainEndpoint (PyStr.ofString e) = true :=
  plain_candidates e (mem_candidates draws h)

end Drawn

/-! ## The name of a path, for the grader -/

/-- `str.lower` knows the ASCII letters: it leaves alone a text that has no capital. -/
def KnowsLower (u : Unicode) : Prop :=
  ∀ s : PyStr, (∀ c ∈ s, c < 128 ∧ ¬ (65 ≤ c ∧ c ≤ 90)) → u.lower s = s

/-- What `rstrip("/")` takes off is slashes. -/
theorem rstripSlash_append (path : PyStr) :
    ∃ slashes, path = rstripSlash path ++ slashes ∧ ∀ c ∈ slashes, c = 47 := by
  have hcut : List.rdropWhile (· == 47) path = rstripSlash path := rfl
  refine ⟨List.rtakeWhile (· == 47) path, ?_, ?_⟩
  · rw [← hcut, List.rdropWhile_append_rtakeWhile]
  · intro c hc
    have hslash : (c == 47) = true := List.mem_rtakeWhile_imp (p := (· == 47)) hc
    exact eq_of_beq hslash

/-- A plain path ends in its last letter, with any slashes after it. -/
theorem plain_ends {path : PyStr} (h : isPlainEndpoint path = true) :
    ∃ c rest, path = 47 :: c :: rest ∧ c ≠ 47 ∧ (c :: rest).getLast? ≠ some 47 ∧
      ∀ d ∈ path, d = 47 ∨ (97 ≤ d ∧ d ≤ 122) := by
  unfold isPlainEndpoint at h
  simp only [Bool.and_eq_true, beq_iff_eq, bne_iff_ne, ne_eq, List.all_eq_true, Bool.or_eq_true,
    decide_eq_true_eq] at h
  obtain ⟨⟨⟨hhead, hsecond⟩, hlast⟩, hletters⟩ := h
  cases path with
  | nil => cases hhead
  | cons first rest =>
    obtain rfl : first = 47 := Option.some_inj.mp hhead
    cases rest with
    | nil => exact absurd rfl hlast
    | cons c rest =>
      refine ⟨c, rest, rfl, ?_, ?_, hletters⟩
      · intro hc
        exact hsecond (congrArg some hc)
      · rwa [List.getLast?_cons_cons] at hlast

theorem rdropWhile_slashes {path slashes : PyStr} (hlast : path.getLast? ≠ some 47)
    (hslashes : ∀ c ∈ slashes, c = 47) :
    List.rdropWhile (· == 47) (path ++ slashes) = path := by
  induction slashes using List.reverseRecOn with
  | nil =>
    rw [List.append_nil, List.rdropWhile_eq_self_iff]
    intro hne hc
    rw [List.getLast?_eq_some_getLast hne] at hlast
    exact hlast (congrArg some (eq_of_beq hc))
  | append_singleton slashes c ih =>
    obtain rfl : c = 47 := hslashes c (List.mem_append_right _ List.mem_cons_self)
    rw [← List.append_assoc, List.rdropWhile_concat_pos (· == 47) _ 47 rfl]
    exact ih fun d hd => hslashes d (List.mem_append_left _ hd)

theorem rstripSlash_plain {path : PyStr} (h : isPlainEndpoint path = true) :
    rstripSlash path = path := by
  obtain ⟨c, rest, rfl, -, hlast, -⟩ := plain_ends h
  have hslash : (47 :: c :: rest).getLast? ≠ some 47 := by rwa [List.getLast?_cons_cons]
  have hcut := rdropWhile_slashes hslash (List.forall_mem_nil (· = 47))
  rwa [List.append_nil] at hcut

/-- A plain path is the name the grader knows it by, with or without slashes at its end. -/
theorem normalizeEndpoint_plain {u : Unicode} (hu : KnowsLower u) {path slashes : PyStr}
    (h : isPlainEndpoint path = true) (hslashes : ∀ c ∈ slashes, c = 47) :
    normalizeEndpoint u (path ++ slashes) = path := by
  obtain ⟨c, rest, rfl, hc, hlast, hletters⟩ := plain_ends h
  have hspace : ∀ d ∈ 47 :: c :: rest ++ slashes, isSpaceCode d = false := by
    intro d hd
    have hcode : d = 47 ∨ (97 ≤ d ∧ d ≤ 122) := by
      rcases List.mem_append.mp hd with hd | hd
      · exact hletters d hd
      · exact .inl (hslashes d hd)
    have hcodes : ∀ n < 123, (n = 47 ∨ 97 ≤ n) → isSpaceCode n = false := by decide
    exact hcodes d (by omega) (by omega)
  have hfront : (47 :: c :: rest ++ slashes).dropWhile (· == 47) = c :: rest ++ slashes := by
    rw [List.cons_append, List.dropWhile_cons_of_pos (by rfl), List.cons_append,
      List.dropWhile_cons_of_neg (by simpa using hc)]
  have hstrip : PyStr.stripOf 47 (47 :: c :: rest ++ slashes) = c :: rest := by
    show List.rdropWhile (· == 47) ((47 :: c :: rest ++ slashes).dropWhile (· == 47)) = _
    rw [hfront, rdropWhile_slashes hlast hslashes]
  have hlower : u.lower (c :: rest) = c :: rest := by
    apply hu
    intro d hd
    have hcode := hletters d (List.mem_cons_of_mem _ hd)
    omega
  unfold normalizeEndpoint
  rw [PyStr.strip_of_no_space hspace, hstrip, hlower]

/-! ## Who answers, and how the answer is graded -/

/-- Who answers a `GET` of a path. -/
def handlerOf (config : TargetConfig) (path : PyStr) : Option Handler :=
  (routeOf config (TargetApp.servedPath path)).toOption

theorem knownPaths_strings (l : List PyStr) :
    TargetApp.knownPaths (.arr (l.map .str)) = .ok (l.map rstripSlash) := by
  induction l with
  | nil => rfl
  | cons e rest ih =>
    have hcons : TargetApp.knownPaths (.arr ((e :: rest).map .str)) =
        (.str e :: rest.map .str).mapM TargetApp.knownPath := rfl
    rw [hcons, List.mapM_cons]
    exact ok_bind rfl (ok_bind ih rfl)

/-- A path that is served as a plain one is that one, with any slashes after it. -/
theorem servedPath_plain {path e : PyStr} (he : isPlainEndpoint e = true)
    (h : TargetApp.servedPath path = e) : ∃ slashes, path = e ++ slashes ∧ ∀ c ∈ slashes, c = 47 := by
  obtain ⟨slashes, hpath, hslashes⟩ := rstripSlash_append path
  unfold TargetApp.servedPath at h
  split at h
  · subst h
    cases he
  · rw [h] at hpath
    exact ⟨slashes, hpath, hslashes⟩

section Graded

variable (draws : Draws)

theorem routeOf_drawn (path : PyStr) :
    routeOf (targetConfigOf (generateChallenge draws)) path =
      .ok (if path = PyStr.ofString draws.vulnerable then .vulnerable
        else if path = PyStr.ofString (draws.safe.get draws.trap) then .errorTrap
        else if path ∈ (draws.vulnerable :: draws.safe).map PyStr.ofString then .safe
        else .unknown) := by
  have hvulnerable : rstripSlash (targetConfigOf (generateChallenge draws)).vulnEndpoint =
      PyStr.ofString draws.vulnerable :=
    rstripSlash_plain (plain_drawn draws List.mem_cons_self)
  have htrap : rstripSlash (targetConfigOf (generateChallenge draws)).errorTrapEndpoint =
      PyStr.ofString (draws.safe.get draws.trap) :=
    rstripSlash_plain (plain_drawn draws (List.mem_cons_of_mem _ (trap_mem_safe draws)))
  have hstripped : ((draws.vulnerable :: draws.safe).map PyStr.ofString).map rstripSlash =
      (draws.vulnerable :: draws.safe).map PyStr.ofString := by
    rw [List.map_map]
    apply List.map_congr_left
    intro e he
    exact rstripSlash_plain (plain_drawn draws he)
  have hknown : TargetApp.knownPaths (targetConfigOf (generateChallenge draws)).allEndpoints =
      .ok ((draws.vulnerable :: draws.safe).map PyStr.ofString) := by
    rw [← hstripped]
    exact knownPaths_strings _
  unfold routeOf
  rw [hvulnerable, htrap, hknown]
  split_ifs with hv ht hl
  · rfl
  · rfl
  · exact ok_bind rfl (if_pos hl)
  · exact ok_bind rfl (if_neg hl)

theorem handlerOf_drawn (path : PyStr) : ∃ handler,
    routeOf (targetConfigOf (generateChallenge draws)) (TargetApp.servedPath path) = .ok handler ∧
      handlerOf (targetConfigOf (generateChallenge draws)) path = some handler := by
  refine ⟨_, routeOf_drawn draws _, ?_⟩
  unfold handlerOf
  rw [routeOf_drawn]
  rfl

/-- The target answers for an endpoint of the list, and the grader knows the path as that one. -/
theorem named_as_handled {u : Unicode} (hu : KnowsLower u) {path : PyStr}
    (hserved : handlerOf (targetConfigOf (generateChallenge draws)) path ≠ some .unknown) :
    ∃ e ∈ draws.vulnerable :: draws.safe, normalizeEndpoint u path = PyStr.ofString e ∧
      (handlerOf (targetConfigOf (generateChallenge draws)) path = some .vulnerable ↔
        e = draws.vulnerable) := by
  have hname {e : String} (he : e ∈ draws.vulnerable :: draws.safe)
      (hpath : TargetApp.servedPath path = PyStr.ofString e) :
      normalizeEndpoint u path = PyStr.ofString e := by
    obtain ⟨slashes, rfl, hslashes⟩ := servedPath_plain (plain_drawn draws he) hpath
    exact normalizeEndpoint_plain hu (plain_drawn draws he) hslashes
  have hsafe {e : String} (he : e ∈ draws.safe) : e ≠ draws.vulnerable := by
    rintro rfl
    exact (List.nodup_cons.mp (nodup_endpoints draws)).1 he
  unfold handlerOf at hserved ⊢
  rw [routeOf_drawn] at hserved ⊢
  split_ifs at hserved ⊢ with hvulnerable htrap hlisted
  · exact ⟨_, List.mem_cons_self, hname List.mem_cons_self hvulnerable, iff_of_true rfl rfl⟩
  · have hmem := trap_mem_safe draws
    exact ⟨_, List.mem_cons_of_mem _ hmem, hname (List.mem_cons_of_mem _ hmem) htrap,
      iff_of_false (by rintro ⟨⟩) (hsafe hmem)⟩
  · obtain ⟨e, he, hpath⟩ := List.mem_map.mp hlisted
    refine ⟨e, he, hname he hpath.symm, iff_of_false (by rintro ⟨⟩) ?_⟩
    rintro rfl
    exact hvulnerable hpath.symm
  · exact absurd rfl hserved

theorem normalizeEndpoint_drawn {u : Unicode} (hu : KnowsLower u) {e : String}
    (he : e ∈ draws.vulnerable :: draws.safe) :
    normalizeEndpoint u (PyStr.ofString e) = PyStr.ofString e := by
  have hname := normalizeEndpoint_plain hu (plain_drawn draws he) (List.forall_mem_nil (· = 47))
  rwa [List.append_nil] at hname

section Served

variable {u : Unicode} (hu : KnowsLower u) {path : PyStr}
  (hserved : handlerOf (targetConfigOf (generateChallenge draws)) path ≠ some .unknown)

include hu hserved

theorem names_vulnerable_iff :
    normalizeEndpoint u path = normalizeEndpoint u (PyStr.ofString draws.vulnerable) ↔
      handlerOf (targetConfigOf (generateChallenge draws)) path = some .vulnerable := by
  obtain ⟨e, -, hname, hwho⟩ := named_as_handled draws hu hserved
  rw [hname, normalizeEndpoint_drawn draws hu List.mem_cons_self, hwho]
  exact ofString_injective.eq_iff

theorem names_safe_iff :
    normalizeEndpoint u path ∈ draws.safe.map (fun e => normalizeEndpoint u (PyStr.ofString e)) ↔
      handlerOf (targetConfigOf (generateChallenge draws)) path ≠ some .vulnerable := by
  obtain ⟨e, he, hname, hwho⟩ := named_as_handled draws hu hserved
  have hsafe : draws.safe.map (fun e => normalizeEndpoint u (PyStr.ofString e)) =
      draws.safe.map PyStr.ofString := by
    apply List.map_congr_left
    intro d hd
    exact normalizeEndpoint_drawn draws hu (List.mem_cons_of_mem _ hd)
  rw [hname, hsafe, List.mem_map_of_injective ofString_injective, Ne, hwho]
  have hfresh := (List.nodup_cons.mp (nodup_endpoints draws)).1
  constructor
  · rintro hmem rfl
    exact hfresh hmem
  · intro hne
    exact (List.mem_cons.mp he).resolve_left hne

end Served

theorem lower_parameter {u : Unicode} (hu : KnowsLower u) :
    u.lower (PyStr.strip (PyStr.ofString (VULNERABLE_PARAMETERS.get draws.parameter))) =
      PyStr.ofString (VULNERABLE_PARAMETERS.get draws.parameter) := by
  have hletters : ∀ p ∈ VULNERABLE_PARAMETERS, ∀ c ∈ PyStr.ofString p,
      isSpaceCode c = false ∧ c < 128 ∧ ¬ (65 ≤ c ∧ c ≤ 90) := by
    decide
  have hdrawn := hletters _ (List.get_mem VULNERABLE_PARAMETERS draws.parameter)
  rw [PyStr.strip_of_no_space fun c hc => (hdrawn c hc).1]
  exact hu _ fun c hc => (hdrawn c hc).2

end Graded

theorem located_iff {u : Unicode} {challenge : Challenge} {findings : Findings} {replayed : Bool} :
    (scoreTask u challenge findings replayed).located = true ↔
      ∃ i f, matchedIndex challenge findings.findings = some i ∧ findings.findings[i]? = some f ∧
        normalizeEndpoint u f.endpoint =
          normalizeEndpoint u (PyStr.ofString challenge.vulnerableEndpoint) ∧
        u.lower (PyStr.strip f.parameter) =
          u.lower (PyStr.strip (PyStr.ofString challenge.vulnerableParameter)) := by
  have hbound : ∀ f, ((matchedIndex challenge findings.findings).bind
      fun i => findings.findings[i]?) = some f ↔
        ∃ i, matchedIndex challenge findings.findings = some i ∧ findings.findings[i]? = some f := by
    intro f
    exact Option.bind_eq_some_iff
  unfold scoreTask
  dsimp only
  cases hfound : (matchedIndex challenge findings.findings).bind fun i => findings.findings[i]? with
  | none =>
    refine iff_of_false Bool.false_ne_true ?_
    rintro ⟨i, f, hi, hf, -⟩
    have hsome := (hbound f).mpr ⟨i, hi, hf⟩
    rw [hfound] at hsome
    cases hsome
  | some f =>
    rw [Bool.and_eq_true, beq_iff_eq, beq_iff_eq]
    constructor
    · rintro ⟨hendpoint, hparameter⟩
      obtain ⟨i, hi, hf⟩ := (hbound f).mp hfound
      exact ⟨i, f, hi, hf, hendpoint, hparameter⟩
    · rintro ⟨i, g, hi, hg, hendpoint, hparameter⟩
      have hsome := (hbound g).mpr ⟨i, hi, hg⟩
      rw [hfound] at hsome
      obtain rfl := Option.some_inj.mp hsome
      exact ⟨hendpoint, hparameter⟩

theorem knowsDigits_latin1 : KnowsDigits Unicode.latin1 := by
  unfold KnowsDigits
  decide

theorem knowsLower_latin1 : KnowsLower Unicode.latin1 := by
  intro s hs
  show s.map _ = s
  conv_rhs => rw [← List.map_id s]
  apply List.map_congr_left
  intro c hc
  have hcode := hs c hc
  rw [if_neg hcode.2, if_neg (by omega)]
  rfl

def firstDraws : Draws where
  canary := ⟨List.replicate 16 0x5A, rfl⟩
  holder := ⟨0, by decide⟩
  tableSuffix := ⟨[0x0B, 0xAD], rfl⟩
  noun := ⟨0, by decide⟩
  columnSuffix := ⟨[0xCA, 0xFE], rfl⟩
  vulnerable := "/api/products"
  safe := CANDIDATE_ENDPOINTS.tail
  shuffled := List.Perm.refl _
  trap := ⟨6, by decide⟩
  parameter := ⟨0, by decide⟩
  variant := ⟨0, by decide⟩

def reportedAt (endpoint : String) (canary : Option PyStr) : Finding where
  endpoint := PyStr.ofString endpoint
  parameter := PyStr.ofString "q"
  injectionType := PyStr.ofString INJECTION_TYPE
  payload := PyStr.ofString "'"
  severity := PyStr.ofString "high"
  confidence := .fin 1
  canary := canary

/-- A finding at the flaw, with a slash at its end, and one at the trap. -/
def twoReported : Findings where
  runId := PyStr.ofString "run"
  findings := [reportedAt "/api/products/" (some (PyStr.ofString (generateChallenge firstDraws).canary)),
    reportedAt "/api/report" none]
  reproduction := []
  schemaVersion := []
  agentName := []
  agentVersion := []

end TaoSubnet
