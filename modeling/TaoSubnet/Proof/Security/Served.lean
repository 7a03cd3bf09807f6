import TaoSubnet.Lib.JsonFile
import TaoSubnet.Proof.Security.Addressing
import TaoSubnet.Proof.Security.Provision
import TaoSubnet.Proof.Security.Wire

/-!
# A replay, as its target sees it

The questions of a blind replay, from the text that the validator puts together to the statement that the
target's database is asked, and back to the digit.
-/

namespace TaoSubnet

open Py

variable {δ : Type} {o : Outside δ} {py : Interpreter}

/-! ## The target behind its address -/

/-- The method of a request, as `urlopen` chooses it. -/
def methodOf (request : HttpRequest) : PyStr :=
  PyStr.ofString (if request.data.isSome then "POST" else "GET")

/-- What answers at the address is the app, in whatever state it then is. -/
def ServedBy (o : Outside δ) (app : TargetApp) (address : PyStr) : Prop :=
  ∀ d request response, Url.authorityOf request.url = some address →
    (o.http d request).1 = .ok response → ∃ target s, Url.selectorOf request.url = some target ∧
      (app.handle (methodOf request) target s).1 = .ok response

def replayPort (seed : ReplaySeed) : PyStr := PyStr.ofString (toString seed.port)

def replayAddress (seed : ReplaySeed) : PyStr := authority (PyStr.ofString "127.0.0.1") (replayPort seed)

theorem ofString_toString (n : Nat) : PyStr.ofString (toString n) = natText n := by
  show PyStr.ofString (String.ofList (Nat.toDigits 10 n)) = natText n
  rw [ofString_ofList]
  rfl

theorem targetUrl_replay (seed : ReplaySeed) :
    TargetUrl (PyStr.ofString "127.0.0.1") (replayPort seed) where
  host_ne := by decide
  host_text := by decide
  port_ne := by
    unfold replayPort
    rw [ofString_toString]
    exact fun h => Nat.toDigits_ne_nil (List.map_eq_nil_iff.mp h)
  port_digits := by
    unfold replayPort
    rw [ofString_toString]
    exact fun c hc => natText_range hc

theorem replayHost_eq (seed : ReplaySeed) :
    replayHost seed = targetUrl (PyStr.ofString "127.0.0.1") (replayPort seed) := by
  unfold replayHost targetUrl authority replayPort
  have hscheme : ("http://127.0.0.1:" ++ toString seed.port : String) =
      "http://" ++ ("127.0.0.1" ++ (":" ++ toString seed.port)) := by
    simp only [← String.append_assoc]
    rfl
  rw [hscheme, ofString_append, ofString_append, ofString_append]
  rfl

theorem rstripSlash_replayHost (seed : ReplaySeed) : rstripSlash (replayHost seed) = replayHost seed := by
  rw [replayHost_eq, rstripSlash_targetUrl (targetUrl_replay seed)]

theorem authorityOf_replay (seed : ReplaySeed) (rest : PyStr) :
    Url.authorityOf (replayHost seed ++ 47 :: rest) = some (replayAddress seed) := by
  rw [replayHost_eq]
  apply (authorityOf_target (targetUrl_replay seed) _).mpr
  intro c hc
  have hkept : Url.rstrip (47 :: rest) = [47] ++ Url.rstrip rest :=
    Url.rdropWhile_append (s := [47]) rest (List.cons_ne_nil 47 []) (by decide)
  rw [hkept] at hc
  obtain rfl := Option.some_inj.mp hc
  rfl

/-! ## What the app says -/

/-- A `GET` that leads to the vulnerable endpoint is answered by the code there. -/
theorem handle_vulnerable {app : TargetApp} {target path query : PyStr}
    (hread : Url.urlparse app.host.checkNetloc target = .ok (path, query))
    (hpath : TargetApp.servedPath path = rstripSlash app.config.vulnEndpoint)
    (hroot : TargetApp.servedPath path ≠ [47])
    (hhealth : TargetApp.servedPath path ≠ PyStr.ofString "/health") (s : TargetState) :
    (app.handle (PyStr.ofString "GET") target s).1 = app.vulnerableSearch (Url.parseQs query) := by
  unfold TargetApp.handle TargetApp.doGet
  rw [if_pos rfl, hread]
  show (app.respond _ _ s).1 = _
  unfold TargetApp.respond
  rw [if_neg (not_or.mpr ⟨hroot, hhealth⟩)]
  show app.dispatch _ _ = _
  unfold TargetApp.dispatch
  rw [if_pos hpath]

/-- `{"found": …}`, as `json.dumps` writes it. -/
def foundText (found : Bool) : PyStr :=
  PyStr.ofString (if found then "\x7b\"found\": true\x7d" else "\x7b\"found\": false\x7d")

theorem dumps_found (floatText : PyFloat → PyStr) (found : Bool) :
    Json.dumps floatText (.obj [TargetApp.item "found" (.bool found)]) = .ok (foundText found) := by
  cases found <;> rfl

theorem foundIn_foundText (hlimit : 1 ≤ py.recursionLimit) (found : Bool) :
    foundIn py (asciiBytes (foundText found)) = some found := by
  have hlegible : Json.Legible py.recursionLimit (fun _ => [])
      (.obj [TargetApp.item "found" (.bool found)]) :=
    ⟨List.nodup_singleton _, unsplit_ofString "found", trivial, trivial⟩
  have hdecoded : Json.decodeBytes ((asciiBytes (foundText found)).map UInt8.toNat) =
      some (foundText found) := by
    cases found <;> decide
  have hdepth : (Json.obj [TargetApp.item "found" (.bool found)]).depth = 1 := by
    cases found <;> rfl
  unfold foundIn Json.loads
  rw [hdecoded]
  dsimp only
  rw [Json.loads_dumps hlegible (hdepth.trans_le hlimit) (dumps_found _ found)]
  rfl

theorem vulnBoolean_answer {app : TargetApp} {context : TargetApp.SqlContext} {value : PyStr}
    {row : Option ResultRow}
    (hrow : app.host.sqlite.fetchone app.db (TargetApp.booleanQuery context value) [] = .ok row) :
    app.vulnBoolean value context = .ok ⟨200, asciiBytes (foundText row.isSome)⟩ := by
  unfold TargetApp.vulnBoolean TargetApp.json
  rw [hrow]
  dsimp only
  rw [dumps_found]
  rfl

/-! ## A question -/

/-- The question about a position, up to the character. -/
def blindFront (context : TargetApp.SqlContext) (table column : PyStr) (i : Nat) : PyStr :=
  PyStr.ofString (if context = .numeric then "0 OR" else "zzz' OR") ++ PyStr.ofString " (" ++
    PyStr.ofString "substr((" ++ PyStr.ofString "SELECT \"" ++ column ++
    PyStr.ofString "\" FROM \"" ++ table ++ PyStr.ofString "\" LIMIT 1" ++ PyStr.ofString ")," ++
    natText i ++ PyStr.ofString ",1)='"

/-- What the vulnerable parameter is asked with. -/
def blindPayload (context : TargetApp.SqlContext) (table column : PyStr) (i : Nat) (c : Char) : PyStr :=
  blindFront context table column i ++ [c.toNat] ++ PyStr.ofString "'" ++ PyStr.ofString ")-- -"

/-- The engine, asked blind about a position, finds a row exactly when the character there is the one it
    was asked about. -/
def AnswersBlind (sqlite : Sqlite) (db : Database) (context : TargetApp.SqlContext) : Prop :=
  ∀ i < 32, ∀ c ∈ HEX, ∃ row, sqlite.fetchone db (TargetApp.booleanQuery context
      (blindPayload context db.secretTable db.secretColumn (i + 1) c)) [] = .ok row ∧
    (row.isSome = true ↔ db.canary[i]? = some c.toNat)

/-- The challenge of a replay. -/
def replayChallenge (draws : Draws) (seed : ReplaySeed) : Challenge :=
  { generateChallenge draws with canary := seed.canary }

/-- The target of a replay. -/
def replayTarget (host : TargetHost) (draws : Draws) (seed : ReplaySeed) : TargetApp :=
  ⟨host, targetConfigOf (replayChallenge draws seed)⟩

def drawnContext (draws : Draws) : TargetApp.SqlContext :=
  TargetApp.contextOf (PyStr.ofString (generateChallenge draws).variant)

/-- The questions of a replay. -/
def replayQuestion (draws : Draws) (seed : ReplaySeed) (i : Nat) (c : Char) : Except Exc PyStr :=
  questionUrl (replayHost seed) draws.vulnerable (generateChallenge draws).vulnerableParameter
    (generateChallenge draws).secretTable (generateChallenge draws).secretColumn
    ((generateChallenge draws).variant.endsWith "numeric") i c

theorem drawn_variant (draws : Draws) :
    ((generateChallenge draws).variant.endsWith "numeric" = true ↔ drawnContext draws = .numeric) ∧
      ((generateChallenge draws).variant.startsWith "boolean" = true ↔
        TargetApp.techniqueOf (PyStr.ofString (generateChallenge draws).variant) = .boolean) := by
  have hall : ∀ v ∈ SQLI_VARIANTS, (v.endsWith "numeric" = true ↔
      TargetApp.contextOf (PyStr.ofString v) = .numeric) ∧ (v.startsWith "boolean" = true ↔
        TargetApp.techniqueOf (PyStr.ofString v) = .boolean) := by
    decide +kernel
  exact hall _ (List.get_mem SQLI_VARIANTS draws.variant)

theorem ofString_blindPayload (draws : Draws) (i : Nat) (c : Char) :
    PyStr.ofString ((if (generateChallenge draws).variant.endsWith "numeric" then "0 OR" else "zzz' OR") ++
      " (" ++ ("substr((" ++ ("SELECT \"" ++ (generateChallenge draws).secretColumn ++ "\" FROM \"" ++
        (generateChallenge draws).secretTable ++ "\" LIMIT 1") ++ ")," ++ toString i ++ ",1)='" ++
        c.toString ++ "'") ++ ")-- -") =
      blindPayload (drawnContext draws) (PyStr.ofString (generateChallenge draws).secretTable)
        (PyStr.ofString (generateChallenge draws).secretColumn) i c := by
  have hcontext : (if (generateChallenge draws).variant.endsWith "numeric" then "0 OR" else "zzz' OR") =
      if drawnContext draws = .numeric then "0 OR" else "zzz' OR" :=
    if_congr (drawn_variant draws).1 rfl rfl
  have hchar : PyStr.ofString c.toString = [c.toNat] := by
    unfold PyStr.ofString
    rw [Char.toString_eq_singleton, String.toList_singleton]
    rfl
  unfold blindPayload blindFront
  rw [hcontext, ← ofString_toString, ← hchar]
  simp only [ofString_append, List.append_assoc]

theorem isText_ofString (s : String) : IsText (PyStr.ofString s) := by
  intro n hn
  have hscalar := scalar_of_mem_ofString hn
  omega

theorem firstOf_eq (params : Dict PyStr (List PyStr)) (name : PyStr) :
    TargetApp.firstOf params name = ((params.get? name).getD []).headD [] := by
  unfold TargetApp.firstOf
  cases params.get? name <;> rfl

theorem valuesOf_single (name : PyStr) {value : PyStr} (h : value ≠ []) :
    valuesOf name [(name, value)] = [value] := by
  simp [valuesOf, h]

theorem blindPayload_ne_nil (context : TargetApp.SqlContext) (table column : PyStr) (i : Nat) (c : Char) :
    blindPayload context table column i c ≠ [] :=
  List.append_ne_nil_of_right_ne_nil _ (by decide)

section Drawn

variable (draws : Draws)

theorem servedPath_drawn :
    TargetApp.servedPath (PyStr.ofString draws.vulnerable) = PyStr.ofString draws.vulnerable := by
  have hplain := plain_drawn draws (List.mem_cons_self (a := draws.vulnerable))
  obtain ⟨c, rest, hpath, -⟩ := plain_ends hplain
  unfold TargetApp.servedPath
  rw [rstripSlash_plain hplain, if_neg (by rw [hpath]; exact List.cons_ne_nil _ _)]

theorem drawn_no_health : PyStr.ofString draws.vulnerable ≠ [47] ∧
    PyStr.ofString draws.vulnerable ≠ PyStr.ofString "/health" := by
  have hall : ∀ e ∈ CANDIDATE_ENDPOINTS,
      PyStr.ofString e ≠ [47] ∧ PyStr.ofString e ≠ PyStr.ofString "/health" := by
    decide
  exact hall _ (mem_candidates draws List.mem_cons_self)

/-- What a question asks for, and what the target reads of it. -/
theorem replayQuestion_read (host : TargetHost) {seed : ReplaySeed} {i : Nat} {c : Char} {url : PyStr}
    (h : replayQuestion draws seed i c = .ok url) :
    Url.authorityOf url = some (replayAddress seed) ∧
      ∃ target query, Url.selectorOf url = some target ∧
        Url.urlparse host.checkNetloc target = .ok (PyStr.ofString draws.vulnerable, query) ∧
        TargetApp.firstOf (Url.parseQs query)
            (PyStr.ofString (generateChallenge draws).vulnerableParameter) =
          blindPayload (drawnContext draws) (PyStr.ofString (generateChallenge draws).secretTable)
            (PyStr.ofString (generateChallenge draws).secretColumn) i c := by
  unfold replayQuestion questionUrl at h
  obtain ⟨query, hquery, h⟩ := except_bind_ok h
  obtain rfl := Except.ok.inj h
  rw [ofString_blindPayload] at hquery
  obtain ⟨d, rest, hendpoint, hd, -, hletters⟩ :=
    plain_ends (plain_drawn draws (List.mem_cons_self (a := draws.vulnerable)))
  have hpath : ∀ c ∈ 47 :: d :: rest, Url.InPath c := by
    intro c hc
    rw [← hendpoint] at hc
    have hcode := hletters c hc
    unfold Url.InPath
    omega
  have hslash : (d :: rest).head? ≠ some 47 := fun h => hd (Option.some_inj.mp h)
  have hfields : ∀ p ∈ [(PyStr.ofString (generateChallenge draws).vulnerableParameter,
      blindPayload (drawnContext draws) (PyStr.ofString (generateChallenge draws).secretTable)
        (PyStr.ofString (generateChallenge draws).secretColumn) i c)], IsText p.1 ∧ IsText p.2 := by
    refine List.forall_mem_singleton.mpr ⟨isText_ofString _, ?_⟩
    rw [← ofString_blindPayload]
    exact isText_ofString _
  obtain ⟨target, hselector, hparsed, -, hvalues⟩ := written_is_read host.checkNetloc
    (targetUrl_replay seed).authority_ne (targetUrl_replay seed).authority_text hpath hslash hfields
    hquery
  rw [rstripSlash_replayHost, hendpoint]
  refine ⟨?_, target, query, ?_, hparsed, ?_⟩
  · rw [List.append_assoc, List.append_assoc, List.cons_append]
    exact authorityOf_replay seed _
  · rw [replayHost_eq]
    exact hselector
  · rw [firstOf_eq, hvalues, valuesOf_single _ (blindPayload_ne_nil _ _ _ _ _)]
    rfl

variable {host : TargetHost} {seed : ReplaySeed}
  (hblind : (generateChallenge draws).variant.startsWith "boolean" = true)
  (hserved : ServedBy o (replayTarget host draws seed) (replayAddress seed))
  (hsql : AnswersBlind host.sqlite (replayTarget host draws seed).db (drawnContext draws))

include hblind hsql

/-- The app's answer to a question. -/
theorem handle_question {target query : PyStr} {i : Nat} {c : Char} (hi : i < 32) (hc : c ∈ HEX)
    (hparsed : Url.urlparse host.checkNetloc target = .ok (PyStr.ofString draws.vulnerable, query))
    (hvalue : TargetApp.firstOf (Url.parseQs query)
        (PyStr.ofString (generateChallenge draws).vulnerableParameter) =
      blindPayload (drawnContext draws) (PyStr.ofString (generateChallenge draws).secretTable)
        (PyStr.ofString (generateChallenge draws).secretColumn) (i + 1) c) (s : TargetState) :
    ((replayTarget host draws seed).handle (PyStr.ofString "GET") target s).1 =
      .ok ⟨200, asciiBytes (foundText (decide (seed.canary.toList[i]? = some c)))⟩ := by
  have hendpoint : rstripSlash (replayTarget host draws seed).config.vulnEndpoint =
      PyStr.ofString draws.vulnerable :=
    rstripSlash_plain (plain_drawn draws List.mem_cons_self)
  obtain ⟨hroot, hhealth⟩ := drawn_no_health draws
  have hpath := servedPath_drawn draws
  rw [handle_vulnerable hparsed (hpath.trans hendpoint.symm) (hpath.symm ▸ hroot)
    (hpath.symm ▸ hhealth)]
  obtain ⟨row, hrow, hfound⟩ := hsql i hi c hc
  have htruth : row.isSome = decide (seed.canary.toList[i]? = some c) := by
    rw [Bool.eq_iff_iff, hfound, decide_eq_true_iff]
    show ((seed.canary.toList.map Char.toNat)[i]? = some c.toNat) ↔ _
    rw [List.getElem?_map, ← Option.map_some]
    exact (Option.map_injective fun _ _ h => Char.toNat_inj.mp h).eq_iff
  have htechnique : TargetApp.techniqueOf (replayTarget host draws seed).config.variant = .boolean :=
    (drawn_variant draws).2.mp hblind
  unfold TargetApp.vulnerableSearch
  dsimp only
  rw [htechnique]
  have hanswer : (replayTarget host draws seed).vulnBoolean _ _ = _ := vulnBoolean_answer hrow
  rw [htruth] at hanswer
  rw [← hanswer]
  exact congrArg (fun value => (replayTarget host draws seed).vulnBoolean value (drawnContext draws))
    hvalue

include hserved

/-- A question that gets through is answered, and truthfully. -/
theorem replayQuestion_answered (hlimit : 1 ≤ py.recursionLimit) {i : Nat} {c : Char} (hi : i < 32)
    (hc : c ∈ HEX) {url : PyStr} (hurl : replayQuestion draws seed (i + 1) c = .ok url) {w : World δ}
    {response : HttpResponse} (hhttp : (o.http w.outside { url := url }).1 = .ok response) :
    attemptAt o py url w = some (decide (seed.canary.toList[i]? = some c)) := by
  obtain ⟨haddress, target, query, hselector, hparsed, hvalue⟩ :=
    replayQuestion_read draws host hurl
  obtain ⟨target', s, hselector', hhandled⟩ :=
    hserved w.outside { url := url } response haddress hhttp
  obtain rfl := Option.some_inj.mp (hselector.symm.trans hselector')
  have hget : methodOf { url := url } = PyStr.ofString "GET" := rfl
  rw [hget, handle_question draws hblind hsql hi hc hparsed hvalue s] at hhandled
  obtain rfl := Except.ok.inj hhandled
  unfold attemptAt
  rw [hhttp]
  exact foundIn_foundText hlimit _

theorem replayQuestion_truthful (hlimit : 1 ≤ py.recursionLimit) :
    Truthful o py (replayQuestion draws seed) seed.canary.toList := by
  intro i hi c hc url hurl w found hfound
  cases hhttp : (o.http w.outside { url := url }).1 with
  | error e =>
    unfold attemptAt at hfound
    rw [hhttp] at hfound
    cases hfound
  | ok response =>
    have hanswered := replayQuestion_answered draws hblind hserved hsql hlimit hi hc hurl hhttp
    exact Option.some_inj.mp (hfound.symm.trans hanswered)

end Drawn

/-! ## Getting through -/

/-- One of the next `n` requests for a URL gets a response. -/
def ReachedWithin (o : Outside δ) (url : PyStr) : (n : Nat) → World δ → Prop
  | 0, _ => False
  | n + 1, w => (∃ response, (o.http w.outside { url := url }).1 = .ok response) ∨
      ReachedWithin o url n (attempted o url w)

theorem answeredWithin_of_reached {url : PyStr}
    (h : ∀ (w : World δ) response, (o.http w.outside { url := url }).1 = .ok response →
      (attemptAt o py url w).isSome = true) {n : Nat} :
    ∀ {w : World δ}, ReachedWithin o url n w → AnsweredWithin o py url n w := by
  induction n with
  | zero => exact fun hreached => hreached
  | succ n ih =>
    intro w hreached
    rcases hreached with ⟨response, hnow⟩ | hlater
    · exact .inl (h w response hnow)
    · exact .inr (ih hlater)

theorem digitAnswered_of_within {urlOf : Char → Except Exc PyStr} {digits : List Char}
    (h : ∀ c ∈ digits, ∀ url, urlOf c = .ok url → ∀ w : World δ, AnsweredWithin o py url 3 w) :
    ∀ w : World δ, DigitAnswered o py urlOf digits w := by
  induction digits with
  | nil => exact fun _ => trivial
  | cons c rest ih =>
    obtain ⟨hfirst, hrest⟩ := List.forall_mem_cons.mp h
    exact fun w url hurl => ⟨hfirst url hurl w, fun w' _ => ih hrest w'⟩

theorem questionsAnswered_of_within {urlOf : Nat → Char → Except Exc PyStr} {n : Nat} : ∀ {i : Nat},
    (∀ j, i ≤ j → j < i + n → ∀ c ∈ HEX, ∀ url, urlOf j c = .ok url →
      ∀ w : World δ, AnsweredWithin o py url 3 w) →
    ∀ w : World δ, QuestionsAnswered o py urlOf i n w := by
  induction n with
  | zero => exact fun _ _ => trivial
  | succ n ih =>
    intro i h w
    refine ⟨digitAnswered_of_within (h i (Nat.le_refl i) (by omega)) w, fun _ w' _ => ?_⟩
    exact ih (fun j hlow hhigh => h j (by omega) (by omega)) w'

/-- A base that is reached, and says that it is well, is ready. -/
theorem waitReady_reached {base url : PyStr} (hurl : rstripSlash base ++ PyStr.ofString "/health" = url)
    (hwell : ∀ d response, (o.http d { url := url }).1 = .ok response → response.status = 200)
    {n : Nat} : ∀ {w : World δ}, ReachedWithin o url n w → ∃ w', waitReady o base n w = (.ok true, w') := by
  induction n with
  | zero => exact fun hreached => hreached.elim
  | succ n ih =>
    intro w hreached
    unfold waitReady
    rw [hurl]
    cases hhttp : (o.http w.outside { url := url }).1 with
    | ok response =>
      have hopen : urlopen o { url := url } w = (.ok response, attempted o url w) := Prod.ext hhttp rfl
      have hstatus : (response.status == 200) = true := beq_iff_eq.mpr (hwell _ _ hhttp)
      refine ⟨attempted o url w, ?_⟩
      refine (Prog.bind_ok (Prog.tryExcept_ok ((Prog.bind_ok hopen).trans rfl))).trans ?_
      rw [hstatus]
      rfl
    | error e =>
      have hopen : urlopen o { url := url } w = (.error e, attempted o url w) := Prod.ext hhttp rfl
      -- this probe was not the one that gets through
      rcases hreached with ⟨response, hnow⟩ | hlater
      · rw [hhttp] at hnow
        cases hnow
      · obtain ⟨w', hready⟩ := ih hlater
        have hfailed : Prog.tryExcept
            (do
              let response ← urlopen o { url := url }
              return response.status == 200)
            (fun _ => return false) w = (.ok false, attempted o url w) :=
          Prog.tryExcept_error (Prog.bind_error hopen)
        exact ⟨w', (Prog.bind_ok hfailed).trans hready⟩

/-! ## The whole replay -/

theorem mem_HEX_of_hex2 {n : Nat} : ∀ c ∈ hex2 n, c ∈ HEX := by
  have hdigit : ∀ d < 16, (if d < 10 then Char.ofNat (48 + d) else Char.ofNat (87 + d)) ∈ HEX := by
    decide +kernel
  show ∀ c ∈ [_, _], c ∈ HEX
  exact List.forall_mem_cons.mpr ⟨hdigit _ (Nat.mod_lt _ (by decide)),
    List.forall_mem_singleton.mpr (hdigit _ (Nat.mod_lt _ (by decide)))⟩

theorem toList_tokenHex (bytes : List UInt8) :
    (tokenHex bytes).toList = bytes.flatMap fun b => hex2 b.toNat := by
  unfold tokenHex
  rw [String.toList_ofList]

theorem mem_HEX_of_tokenHex {bytes : List UInt8} : ∀ c ∈ (tokenHex bytes).toList, c ∈ HEX := by
  intro c hc
  rw [toList_tokenHex] at hc
  obtain ⟨b, -, hc⟩ := List.mem_flatMap.mp hc
  exact mem_HEX_of_hex2 c hc

theorem length_tokenHex (bytes : List UInt8) : (tokenHex bytes).toList.length = 2 * bytes.length := by
  rw [toList_tokenHex]
  induction bytes with
  | nil => rfl
  | cons b rest ih =>
    rw [List.flatMap_cons, List.length_append, ih, List.length_cons]
    show 2 + _ = _
    omega

def healthUrl (seed : ReplaySeed) : PyStr := replayHost seed ++ PyStr.ofString "/health"

/-- The app is well. -/
theorem handle_health (app : TargetApp) (s : TargetState) :
    ∃ body, (app.handle (PyStr.ofString "GET") (PyStr.ofString "/health") s).1 = .ok ⟨200, body⟩ := by
  have hread : Url.urlparse app.host.checkNetloc (PyStr.ofString "/health") =
      .ok (PyStr.ofString "/health", []) := rfl
  have hbody : Json.dumps app.host.floatText (.obj [TargetApp.item "ok" (.bool true),
      TargetApp.item "service" (.str (PyStr.ofString "sqli-target"))]) =
      .ok (PyStr.ofString "\x7b\"ok\": true, \"service\": \"sqli-target\"\x7d") := rfl
  refine ⟨asciiBytes (PyStr.ofString "\x7b\"ok\": true, \"service\": \"sqli-target\"\x7d"), ?_⟩
  unfold TargetApp.handle TargetApp.doGet
  rw [if_pos rfl, hread]
  show (app.respond (PyStr.ofString "/health") (Url.parseQs []) s).1 = _
  unfold TargetApp.respond
  rw [if_pos (.inr rfl)]
  unfold TargetApp.json
  rw [hbody]
  rfl

theorem health_answered {seed : ReplaySeed} {app : TargetApp}
    (hserved : ServedBy o app (replayAddress seed)) {d : δ} {response : HttpResponse}
    (hhttp : (o.http d { url := healthUrl seed }).1 = .ok response) : response.status = 200 := by
  have haddress : Url.authorityOf (healthUrl seed) = some (replayAddress seed) :=
    authorityOf_replay seed _
  obtain ⟨target, s, hselector, hhandled⟩ :=
    hserved d { url := healthUrl seed } response haddress hhttp
  have htarget : Url.selectorOf (healthUrl seed) = some (PyStr.ofString "/health") := by
    unfold healthUrl
    rw [replayHost_eq]
    exact Url.selectorOf_target (targetUrl_replay seed).authority_ne
      (targetUrl_replay seed).authority_text (by decide)
  obtain rfl := Option.some_inj.mp (htarget.symm.trans hselector)
  obtain ⟨body, hbody⟩ := handle_health app s
  obtain rfl := Except.ok.inj (hbody.symm.trans hhandled)
  rfl

/-- What is extracted from a target that is reached is its secret. -/
theorem booleanExtract_served {draws : Draws} {host : TargetHost} {seed : ReplaySeed}
    {fresh : List.Vector UInt8 CANARY_BYTES} (hfresh : seed.canary = tokenHex fresh.toList)
    (hblind : (generateChallenge draws).variant.startsWith "boolean" = true)
    (hserved : ServedBy o (replayTarget host draws seed) (replayAddress seed))
    (hsql : AnswersBlind host.sqlite (replayTarget host draws seed).db (drawnContext draws))
    (hlimit : 1 ≤ py.recursionLimit)
    (hreached : ∀ i < 32, ∀ c ∈ HEX, ∀ url, replayQuestion draws seed (i + 1) c = .ok url →
      ∀ w : World δ, ReachedWithin o url 3 w) (w : World δ) :
    ∃ w', booleanExtract o py (replayHost seed) draws.vulnerable
        (generateChallenge draws).vulnerableParameter (generateChallenge draws).secretTable
        (generateChallenge draws).secretColumn ((generateChallenge draws).variant.endsWith "numeric") w =
      (.ok seed.canary, w') := by
  have hurl : ∀ i c, ∃ url, replayQuestion draws seed i c = .ok url := by
    intro i c
    obtain ⟨query, hquery⟩ := questionUrl_ok (replayHost seed) draws.vulnerable
      (generateChallenge draws).vulnerableParameter (generateChallenge draws).secretTable
      (generateChallenge draws).secretColumn ((generateChallenge draws).variant.endsWith "numeric") i c
    exact ⟨_, hquery⟩
  have hlength : seed.canary.toList.length = 32 := by
    rw [hfresh, length_tokenHex, List.Vector.toList_length]
    rfl
  have hanswered : QuestionsAnswered o py (replayQuestion draws seed) 1 32 w := by
    apply questionsAnswered_of_within
    intro j hlow hhigh c hc url hurl w
    obtain ⟨i, rfl⟩ : ∃ i, j = i + 1 := ⟨j - 1, by omega⟩
    apply answeredWithin_of_reached _ (hreached i (by omega) c hc url hurl w)
    intro w response hhttp
    rw [replayQuestion_answered draws hblind hserved hsql hlimit (by omega) hc hurl hhttp]
    rfl
  obtain ⟨out, w', hrun, -, hall⟩ := extractDigits_truthful hurl
    (replayQuestion_truthful draws hblind hserved hsql hlimit) 32 0 (le_refl 32) w
  -- every question was answered, so no digit is missed
  have hout : out = seed.canary.toList := by
    refine hall ?_ (by omega) hanswered
    rw [hfresh]
    exact mem_HEX_of_tokenHex
  refine ⟨w', ?_⟩
  rw [booleanExtract_eq]
  refine (Prog.bind_ok hrun).trans ?_
  rw [hout, String.ofList_toList]
  rfl

/-- **A blind replay confirms** whatever was reported: the questions go through the URL, the request line
    and the query to the database of the fresh target, the answers come back, and the digits are those of
    its canary. -/
theorem blind_replay_confirms (o : Outside δ) (py : Interpreter) (host : TargetHost) (draws : Draws)
    (seed : ReplaySeed) (hdigits : KnowsDigits host.py.unicode) (hlimit : 1 ≤ host.py.recursionLimit)
    (hlimit' : 1 ≤ py.recursionLimit)
    (hfresh : ∃ fresh : List.Vector UInt8 CANARY_BYTES, seed.canary = tokenHex fresh.toList)
    (hblind : (generateChallenge draws).variant.startsWith "boolean" = true) {config : TargetConfig}
    (hconfig : readConfig host.py (envOf (replayChallenge draws seed)) = .ok config)
    (hsql : AnswersBlind host.sqlite (buildDb config) (TargetApp.contextOf config.variant))
    (hserved : ServedBy o ⟨host, config⟩ (replayAddress seed))
    (hdocker : ∀ d args, ∃ run, (o.docker d args).1 = .ok run ∧ run.returncode = 0)
    (hhealth : ∀ w : World δ, ReachedWithin o (healthUrl seed) 30 w)
    (hreached : ∀ i < 32, ∀ c ∈ HEX, ∀ url, replayQuestion draws seed (i + 1) c = .ok url →
      ∀ w : World δ, ReachedWithin o url 3 w)
    {steps : List ReproStep} (hsteps : steps ≠ []) (w : World δ) :
    (runReplay o py seed (generateChallenge draws) steps w).1 = .ok true := by
  obtain ⟨fresh, hfresh⟩ := hfresh
  rw [readConfig_envOf hdigits hlimit] at hconfig
  obtain rfl := Except.ok.inj hconfig
  have hstarted : ∀ args (w : World δ), ∃ run w', docker o args w = (.ok run, w') ∧
      run.returncode = 0 := by
    intro args w
    obtain ⟨run, hrun, hcode⟩ := hdocker w.outside args
    exact ⟨run, _, Prod.ext hrun rfl, hcode⟩
  have hagainst : ∀ w : World δ, ∃ w', replayAgainst o py seed (replayChallenge draws seed) steps w =
      (.ok true, w') := by
    intro w
    have hurl : rstripSlash (replayHost seed) ++ PyStr.ofString "/health" = healthUrl seed := by
      rw [rstripSlash_replayHost]
      rfl
    obtain ⟨w1, hready⟩ :=
      waitReady_reached hurl (fun d response hhttp => health_answered hserved hhttp) (hhealth w)
    obtain ⟨w2, hextracted⟩ :=
      booleanExtract_served hfresh hblind hserved hsql hlimit' hreached w1
    refine ⟨w2, ?_⟩
    have hcompared : replayAgainst o py seed (replayChallenge draws seed) steps w =
        (.ok (seed.canary == seed.canary), w2) :=
      replayAgainst_boolean hblind hready hextracted
    rw [hcompared, beq_self_eq_true]
  obtain ⟨run, w1, hrun, hcode⟩ := hstarted (replayTargetArgs seed (replayChallenge draws seed)) w
  obtain ⟨w2, hconfirmed⟩ := hagainst w1
  obtain ⟨removed, w3, hremoved, -⟩ := hstarted (rmContainerArgs seed.name) w2
  have hresult : runReplay o py seed (generateChallenge draws) steps w = (.ok true, w3) := by
    unfold runReplay
    rw [if_neg (by simpa using hsteps)]
    apply Prog.tryFinally_ok
    · apply Prog.tryExcept_ok
      refine (Prog.bind_ok hrun).trans ?_
      rw [if_neg (not_not.mpr hcode)]
      exact hconfirmed
    · exact (Prog.bind_ok hremoved).trans rfl
  rw [hresult]

/-! ## A target over a network that works -/

/-- What `urlopen` makes of the app's answer. -/
def overHttp (app : TargetApp) (address : PyStr) (request : HttpRequest) : Except Exc HttpResponse :=
  if Url.authorityOf request.url = some address then
    match Url.selectorOf request.url with
    | none => .error ⟨.valueError, "unknown url type"⟩
    | some target =>
      match (app.handle (methodOf request) target {}).1 with
      | .ok response => if response.status < 400 then .ok response else .error ⟨.osError, "HTTP Error"⟩
      | .error _ => .error ⟨.osError, "Remote end closed connection without response"⟩
  else .error ⟨.osError, "[Errno 111] Connection refused"⟩

def workingNetwork (app : TargetApp) (address : PyStr) : Outside Unit where
  docker d _ := (.ok { returncode := 0 }, d)
  http d request := (overHttp app address request, d)

theorem overHttp_ok {app : TargetApp} {address target : PyStr} {request : HttpRequest}
    {response : HttpResponse} (haddress : Url.authorityOf request.url = some address)
    (hselector : Url.selectorOf request.url = some target)
    (hhandled : (app.handle (methodOf request) target {}).1 = .ok response)
    (hstatus : response.status < 400) : overHttp app address request = .ok response := by
  unfold overHttp
  rw [if_pos haddress, hselector]
  dsimp only
  rw [hhandled]
  exact if_pos hstatus

theorem workingNetwork_served (app : TargetApp) (address : PyStr) :
    ServedBy (workingNetwork app address) app address := by
  intro d request response haddress hhttp
  change overHttp app address request = .ok response at hhttp
  unfold overHttp at hhttp
  rw [if_pos haddress] at hhttp
  cases hselector : Url.selectorOf request.url with
  | none =>
    rw [hselector] at hhttp
    cases hhttp
  | some target =>
    rw [hselector] at hhttp
    dsimp only at hhttp
    refine ⟨target, {}, rfl, ?_⟩
    cases hhandled : (app.handle (methodOf request) target {}).1 with
    | error e =>
      rw [hhandled] at hhttp
      cases hhttp
    | ok answer =>
      rw [hhandled] at hhttp
      dsimp only at hhttp
      split at hhttp
      · rw [Except.ok.inj hhttp]
      · cases hhttp

def blindDraws : Draws := { firstDraws with variant := ⟨2, by decide⟩ }

/-- How a blind statement about the digit ends. -/
def blindEnd (c : Char) : PyStr :=
  [c.toNat] ++ PyStr.ofString "'" ++ PyStr.ofString ")-- -" ++ PyStr.ofString "' LIMIT 1"

/-- The engine for a secret of zeros. -/
def zeroEngine : Sqlite where
  fetchall _ _ _ := .ok []
  fetchone _ query _ := .ok (if (blindEnd '0').isSuffixOf query then some [.int 1] else none)

theorem length_blindEnd (c : Char) : (blindEnd c).length = 16 := rfl

theorem blindEnd_suffix (front : PyStr) (c : Char) :
    (blindEnd '0').isSuffixOf (front ++ blindEnd c) = decide (c = '0') := by
  rw [Bool.eq_iff_iff, List.isSuffixOf_iff_suffix, decide_eq_true_iff]
  constructor
  · intro hsuffix
    have hends : blindEnd '0' <:+ blindEnd c :=
      List.suffix_of_suffix_length_le hsuffix (List.suffix_append front _)
        (le_of_eq ((length_blindEnd '0').trans (length_blindEnd c).symm))
    have hsame : blindEnd '0' = blindEnd c := hends.eq_of_length rfl
    exact (Char.toNat_inj.mp (List.cons.inj hsame).1).symm
  · rintro rfl
    exact List.suffix_append front _

theorem zeroEngine_answers {db : Database} (h : db.canary = PyStr.ofString zeros) :
    AnswersBlind zeroEngine db .string := by
  intro i hi c hc
  refine ⟨_, rfl, ?_⟩
  have hquery : TargetApp.booleanQuery .string
      (blindPayload .string db.secretTable db.secretColumn (i + 1) c) =
        PyStr.ofString "SELECT 1 FROM products WHERE name = '" ++
          blindFront .string db.secretTable db.secretColumn (i + 1) ++ blindEnd c := by
    unfold TargetApp.booleanQuery blindPayload blindEnd
    simp only [List.append_assoc]
  have hzero : db.canary[i]? = some '0'.toNat := by
    rw [h]
    unfold zeros
    rw [ofString_ofList, List.map_replicate, List.getElem?_replicate, if_pos hi]
  rw [hquery, blindEnd_suffix, hzero]
  by_cases hc : c = '0'
  · subst hc
    exact iff_of_true rfl rfl
  · rw [decide_eq_false hc]
    refine iff_of_false Bool.false_ne_true ?_
    intro hsame
    exact hc (Char.toNat_inj.mp (Option.some_inj.mp hsame)).symm

def zeroHost : TargetHost where
  py := cpython
  floatText _ := []
  checkNetloc _ := .ok ()
  sqlite := zeroEngine
  unsupported _ := ⟨501, []⟩

/-- The recipe is a request for nothing. -/
def idleStep : ReproStep := ⟨0, PyStr.ofString "GET", PyStr.ofString "/", []⟩

def zeroTarget : TargetApp := replayTarget zeroHost blindDraws zeroSeed

theorem blind_blindDraws : (generateChallenge blindDraws).variant.startsWith "boolean" = true := by
  decide +kernel

theorem drawnContext_blindDraws : drawnContext blindDraws = .string := by decide +kernel

theorem zeroTarget_answers :
    AnswersBlind zeroHost.sqlite zeroTarget.db (TargetApp.contextOf zeroTarget.config.variant) := by
  have hcontext : TargetApp.contextOf zeroTarget.config.variant = .string := drawnContext_blindDraws
  rw [hcontext]
  exact zeroEngine_answers rfl

theorem zeroTarget_healthy (w : World Unit) :
    ReachedWithin (workingNetwork zeroTarget (replayAddress zeroSeed)) (healthUrl zeroSeed) 30 w := by
  have htarget : Url.selectorOf (healthUrl zeroSeed) = some (PyStr.ofString "/health") := by
    unfold healthUrl
    rw [replayHost_eq]
    exact Url.selectorOf_target (targetUrl_replay zeroSeed).authority_ne
      (targetUrl_replay zeroSeed).authority_text (by decide)
  obtain ⟨body, hbody⟩ := handle_health zeroTarget {}
  have hanswer : overHttp zeroTarget (replayAddress zeroSeed) { url := healthUrl zeroSeed } =
      .ok ⟨200, body⟩ :=
    overHttp_ok (authorityOf_replay zeroSeed _) htarget hbody (show 200 < 400 by decide)
  exact .inl ⟨_, hanswer⟩

theorem zeroTarget_reached {i : Nat} (hi : i < 32) {c : Char} (hc : c ∈ HEX) {url : PyStr}
    (hurl : replayQuestion blindDraws zeroSeed (i + 1) c = .ok url) (w : World Unit) :
    ReachedWithin (workingNetwork zeroTarget (replayAddress zeroSeed)) url 3 w := by
  obtain ⟨haddress, target, query, hselector, hparsed, hvalue⟩ :=
    replayQuestion_read blindDraws zeroHost hurl
  have hhandled : (zeroTarget.handle (PyStr.ofString "GET") target {}).1 = .ok _ :=
    handle_question blindDraws blind_blindDraws zeroTarget_answers hi hc hparsed hvalue {}
  have hanswer : overHttp zeroTarget (replayAddress zeroSeed) { url := url } = .ok _ :=
    overHttp_ok haddress hselector hhandled (show 200 < 400 by decide)
  exact .inl ⟨_, hanswer⟩

theorem zeros_eq : zeros = tokenHex (List.replicate 16 0) := by decide +kernel

theorem blind_replay_confirms_zeros :
    (runReplay (workingNetwork zeroTarget (replayAddress zeroSeed)) cpython zeroSeed
      (generateChallenge blindDraws) [idleStep] { outside := () }).1 = .ok true :=
  blind_replay_confirms _ cpython zeroHost blindDraws zeroSeed knowsDigits_latin1 (by decide)
    (by decide) ⟨⟨List.replicate 16 0, rfl⟩, zeros_eq⟩ blind_blindDraws
    (readConfig_envOf knowsDigits_latin1 (by decide) _) zeroTarget_answers
    (workingNetwork_served zeroTarget _) (fun _ _ => ⟨_, rfl, rfl⟩) zeroTarget_healthy
    (fun _ hi _ hc _ hurl w => zeroTarget_reached hi hc hurl w) (List.cons_ne_nil _ _) _

end TaoSubnet
