import TaoSubnet.Proof.Security.Frames

/-!
# The bound on a download

Before a pull the manifest is read, for the size it declares. A size that cannot be told is meant to
make no difference. It makes none where each of the one or two reads ends in a way the check looks
for; a timeout is a rejection, and a value that Python cannot convert is an exception.
-/

namespace TaoSubnet

open Py

variable {δ : Type} {o : Outside δ} {py : Interpreter}

/-! ## What a manifest declares -/

/-- The layers that are objects. -/
def objectsOf (values : List Json) : List (List (PyStr × Json)) :=
  values.filterMap fun value => match value with
    | .obj items => some items
    | _ => none

/-- The config, where it is an object. -/
def configOf (manifest : List (PyStr × Json)) : List (List (PyStr × Json)) :=
  match Json.get? manifest "config" with
  | some (.obj config) => [config]
  | _ => []

/-- Every size that is counted is one that `int` converts. -/
def CountsUp (u : Unicode) (manifest : List (PyStr × Json)) : Prop :=
  ∀ layers, Json.get? manifest "layers" = some (.arr layers) →
    ∀ counted ∈ objectsOf layers ++ configOf manifest, ∀ value,
      Json.get? counted "size" = some value → ∃ n, intOf u value = .ok n

/-- The sizes of the layers and of the config are `total` together. -/
def Declares (u : Unicode) (manifest : List (PyStr × Json)) (total : Int) : Prop :=
  ∃ layers sizes, Json.get? manifest "layers" = some (.arr layers) ∧
    List.Forall₂ (fun counted n => declaredSize u counted = .ok n)
      (objectsOf layers ++ configOf manifest) sizes ∧ total = sizes.sum

/-- An index entry for the expected platform. -/
def Expected (entry : List (PyStr × Json)) : Prop :=
  ∃ platform, Json.get? entry "platform" = some (.obj platform) ∧
    Json.get? platform "architecture" = some (.str (PyStr.ofString EXPECTED_ARCH)) ∧
    Json.get? platform "os" = some (.str (PyStr.ofString EXPECTED_OS))

/-- Up to the first entry for the expected platform, every platform is an object or false. -/
def PlatformsRead : List Json → Prop
  | [] => True
  | .obj entry :: rest => (∃ platform, getObject entry "platform" = .ok platform) ∧
      (¬ Expected entry → PlatformsRead rest)
  | _ :: rest => PlatformsRead rest

/-- The first entry for the expected platform has this digest, and it is not false. -/
def FirstDigest (digest : Json) : List Json → Prop
  | [] => False
  | .obj entry :: rest => (Expected entry ∧ truthyOrNone (Json.get? entry "digest") = some digest) ∨
      (¬ Expected entry ∧ FirstDigest digest rest)
  | _ :: rest => FirstDigest digest rest

/-! ## How a read ends -/

/-- The object a read gives. -/
def ReadGives (py : Interpreter) (answer : Outcome) (data : List (PyStr × Json)) : Prop :=
  ∃ result, answer = .ok result ∧ result.returncode = 0 ∧
    Json.loadsText py.recursionLimit (PyStr.ofString result.stdout) = .ok (.obj data)

/-- A read that ends in a way the check looks for: Docker is not there, or the command fails, or what
    it prints is no JSON (but not too deep to tell) or JSON of which `P` holds, where it is an
    object. -/
def ReadsAs (py : Interpreter) (answer : Outcome) (P : List (PyStr × Json) → Prop) : Prop :=
  (∃ e, answer = .error e ∧ e.cls.isOSError = true) ∨
    ∃ result, answer = .ok result ∧ (result.returncode = 0 →
      (∀ e, Json.loadsText py.recursionLimit (PyStr.ofString result.stdout) = .error e →
        e.cls.isValueError = true) ∧
      ∀ data, Json.loadsText py.recursionLimit (PyStr.ofString result.stdout) = .ok (.obj data) →
        P data)

/-- The reference of the manifest an index leads to, as a command argument. -/
def subRef (py : Interpreter) (ref : String) (digest : Json) : Except Exc String :=
  argumentOf (PyStr.ofString (repoOf ref) ++ [64] ++ strValue py digest)

/-- The second read, where there is one. -/
def IndexReads (o : Outside δ) (py : Interpreter) (ref : String) (d : δ) (manifests : List Json) :
    Prop :=
  PlatformsRead manifests ∧ ∀ digest, FirstDigest digest manifests →
    ∃ sub, subRef py ref digest = .ok sub ∧
      ReadsAs py (o.docker d (manifestArgs sub)).1 (CountsUp py.unicode)

/-- Each read ends in a way the check looks for. -/
def SizeReads (o : Outside δ) (py : Interpreter) (ref : String) (d : δ) : Prop :=
  ReadsAs py (o.docker d (manifestArgs ref)).1 fun data =>
    CountsUp py.unicode data ∧
      ((∀ layers, Json.get? data "layers" ≠ some (.arr layers)) →
        ∀ manifests, Json.get? data "manifests" = some (.arr manifests) →
          IndexReads o py ref (o.docker d (manifestArgs ref)).2 manifests)

/-- The registry declares `total` bytes for the image, or for the platform's of an index. -/
def DeclaredSize (o : Outside δ) (py : Interpreter) (ref : String) (d : δ) (total : Int) : Prop :=
  ∃ data, ReadGives py (o.docker d (manifestArgs ref)).1 data ∧
    (Declares py.unicode data total ∨
      (∀ layers, Json.get? data "layers" ≠ some (.arr layers)) ∧
        ∃ manifests digest sub manifest,
          Json.get? data "manifests" = some (.arr manifests) ∧ FirstDigest digest manifests ∧
          subRef py ref digest = .ok sub ∧
          ReadGives py (o.docker (o.docker d (manifestArgs ref)).2 (manifestArgs sub)).1
            manifest ∧
          Declares py.unicode manifest total)

/-- The size can be told, or not: the reads end in a way the check looks for, and a size that is
    declared has no more digits than can be written. -/
def SizeSettled (o : Outside δ) (py : Interpreter) (ref : String) (d : δ) : Prop :=
  SizeReads o py ref d ∧
    ∀ total, DeclaredSize o py ref d total → total < 10 ^ PyStr.maxIntDigits

/-! ## The pure parts -/

theorem declaredSize_ok_iff (u : Unicode) (items : List (PyStr × Json)) :
    (∃ n, declaredSize u items = .ok n) ↔
      ∀ value, Json.get? items "size" = some value → ∃ n, intOf u value = .ok n := by
  unfold declaredSize
  cases Json.get? items "size" with
  | none => simp
  | some value => simp

theorem sumSizes_ok_iff (u : Unicode) (layers : List Json) : ∀ start total : Int,
    sumSizes u start layers = .ok total ↔ ∃ sizes,
      List.Forall₂ (fun counted n => declaredSize u counted = .ok n) (objectsOf layers) sizes ∧
        total = start + sizes.sum := by
  induction layers with
  | nil =>
    intro start total
    constructor
    · intro h
      cases h
      exact ⟨[], .nil, by simp⟩
    · intro h
      obtain ⟨sizes, hsizes, htotal⟩ := h
      cases hsizes
      rw [htotal]
      simp [sumSizes]
  | cons layer rest ih =>
    intro start total
    have hother : ∀ value : Json, objectsOf (value :: rest) = objectsOf rest →
        sumSizes u start (value :: rest) = sumSizes u start rest →
        (sumSizes u start (value :: rest) = .ok total ↔ ∃ sizes,
          List.Forall₂ (fun counted n => declaredSize u counted = .ok n)
            (objectsOf (value :: rest)) sizes ∧ total = start + sizes.sum) := by
      intro value hobjects hsum
      rw [hobjects, hsum]
      exact ih start total
    cases layer with
    | obj items =>
      constructor
      · intro h
        obtain ⟨n, hn, hrest⟩ := except_bind_ok h
        obtain ⟨sizes, hsizes, htotal⟩ := (ih _ _).mp hrest
        refine ⟨n :: sizes, .cons hn hsizes, ?_⟩
        rw [htotal, List.sum_cons]
        omega
      · intro h
        obtain ⟨sizes, hsizes, htotal⟩ := h
        cases hsizes with
        | @cons _ n _ sizes hn hsizes =>
          refine ok_bind hn ((ih _ _).mpr ⟨sizes, hsizes, ?_⟩)
          rw [htotal, List.sum_cons]
          omega
    | null => exact hother _ rfl rfl
    | bool b => exact hother _ rfl rfl
    | int n => exact hother _ rfl rfl
    | float x => exact hother _ rfl rfl
    | str s => exact hother _ rfl rfl
    | arr items => exact hother _ rfl rfl

/-- Sizes can be listed exactly when each of them can be told. -/
theorem sizes_exist_iff (u : Unicode) (counted : List (List (PyStr × Json))) :
    (∃ sizes, List.Forall₂ (fun items n => declaredSize u items = .ok n) counted sizes) ↔
      ∀ items ∈ counted, ∃ n, declaredSize u items = .ok n := by
  induction counted with
  | nil =>
    constructor
    · intro _ items hitems
      cases hitems
    · intro _
      exact ⟨[], .nil⟩
  | cons first rest ih =>
    rw [List.forall_mem_cons, ← ih]
    constructor
    · intro h
      obtain ⟨sizes, hsizes⟩ := h
      cases hsizes with
      | cons hn hrest => exact ⟨⟨_, hn⟩, _, hrest⟩
    · intro h
      obtain ⟨⟨n, hn⟩, sizes, hsizes⟩ := h
      exact ⟨n :: sizes, .cons hn hsizes⟩

theorem forall₂_concat {α β : Type} {R : α → β → Prop} {a : α} (as : List α) :
    ∀ {bs : List β}, List.Forall₂ R (as ++ [a]) bs →
      ∃ init b, bs = init ++ [b] ∧ List.Forall₂ R as init ∧ R a b := by
  induction as with
  | nil =>
    intro bs h
    cases h with
    | cons hab hrest =>
      cases hrest
      exact ⟨[], _, rfl, .nil, hab⟩
  | cons first rest ih =>
    intro bs h
    cases h with
    | cons hfirst hrest =>
      obtain ⟨init, b, hbs, hinit, hab⟩ := ih hrest
      rw [hbs]
      exact ⟨_ :: init, b, rfl, .cons hfirst hinit, hab⟩

section Layers

variable {u : Unicode} {manifest : List (PyStr × Json)}

theorem layersTotal_no_list (h : ∀ layers, Json.get? manifest "layers" ≠ some (.arr layers)) :
    layersTotal u manifest = .ok none := by
  unfold layersTotal
  cases hlayers : Json.get? manifest "layers" with
  | none => rfl
  | some value =>
    cases value with
    | arr layers => exact absurd hlayers (h layers)
    | null => rfl
    | bool b => rfl
    | int n => rfl
    | float x => rfl
    | str s => rfl
    | obj items => rfl

/-- With a list of layers, the total is that of the layers and then of the config. -/
theorem layersTotal_list {layers : List Json} (h : Json.get? manifest "layers" = some (.arr layers))
    (r : Option Int) : layersTotal u manifest = .ok r ↔
      ∃ total, r = some total ∧ Declares u manifest total := by
  unfold layersTotal
  rw [h]
  have hdeclares : ∀ total, Declares u manifest total ↔ ∃ sizes,
      List.Forall₂ (fun counted n => declaredSize u counted = .ok n)
        (objectsOf layers ++ configOf manifest) sizes ∧ total = sizes.sum := by
    intro total
    unfold Declares
    constructor
    · intro hd
      obtain ⟨layers', sizes, hlayers', hsizes, htotal⟩ := hd
      rw [h] at hlayers'
      cases hlayers'
      exact ⟨sizes, hsizes, htotal⟩
    · intro hd
      obtain ⟨sizes, hsizes, htotal⟩ := hd
      exact ⟨layers, sizes, h, hsizes, htotal⟩
  -- Without an object for a config the layers are all there is.
  have hplain : configOf manifest = [] → ((do
      let total ← sumSizes u 0 layers
      return some total) = Except.ok (ε := Exc) r ↔ ∃ total, r = some total ∧
        Declares u manifest total) := by
    intro hconfig
    constructor
    · intro hsum
      obtain ⟨total, htotal, hr⟩ := except_bind_ok hsum
      cases hr
      obtain ⟨sizes, hsizes, hsum'⟩ := (sumSizes_ok_iff u layers 0 total).mp htotal
      refine ⟨total, rfl, (hdeclares total).mpr ⟨sizes, ?_, by omega⟩⟩
      rw [hconfig, List.append_nil]
      exact hsizes
    · intro hd
      obtain ⟨total, hr, hd⟩ := hd
      obtain ⟨sizes, hsizes, hsum⟩ := (hdeclares total).mp hd
      rw [hconfig, List.append_nil] at hsizes
      rw [hr]
      exact ok_bind ((sumSizes_ok_iff u layers 0 total).mpr ⟨sizes, hsizes, by omega⟩) rfl
  cases hconfig : Json.get? manifest "config" with
  | none => exact hplain (by unfold configOf; rw [hconfig])
  | some value =>
    cases value with
    | obj config =>
      have hof : configOf manifest = [config] := by
        unfold configOf
        rw [hconfig]
      constructor
      · intro hsum
        obtain ⟨layersSum, hlayersSum, hrest⟩ := except_bind_ok hsum
        obtain ⟨n, hn, hr⟩ := except_bind_ok hrest
        cases hr
        obtain ⟨sizes, hsizes, hsum'⟩ := (sumSizes_ok_iff u layers 0 layersSum).mp hlayersSum
        refine ⟨_, rfl, (hdeclares _).mpr ⟨sizes ++ [n], ?_, ?_⟩⟩
        · rw [hof]
          exact List.rel_append hsizes (.cons hn .nil)
        · rw [List.sum_append, List.sum_singleton]
          omega
      · intro hd
        obtain ⟨total, hr, hd⟩ := hd
        obtain ⟨sizes, hsizes, hsum⟩ := (hdeclares total).mp hd
        rw [hof] at hsizes
        obtain ⟨init, n, hsplit, hinit, hn⟩ := forall₂_concat _ hsizes
        rw [hsplit, List.sum_append, List.sum_singleton] at hsum
        rw [hr, hsum]
        refine ok_bind ((sumSizes_ok_iff u layers 0 _).mpr ⟨init, hinit, rfl⟩) (ok_bind hn ?_)
        rw [Int.zero_add]
        rfl
    | null => exact hplain (by unfold configOf; rw [hconfig])
    | bool b => exact hplain (by unfold configOf; rw [hconfig])
    | int n => exact hplain (by unfold configOf; rw [hconfig])
    | float x => exact hplain (by unfold configOf; rw [hconfig])
    | str s => exact hplain (by unfold configOf; rw [hconfig])
    | arr items => exact hplain (by unfold configOf; rw [hconfig])

/-- The total can be told, or is not there, exactly when every size that is counted can be. -/
theorem layersTotal_ok_iff : (∃ r, layersTotal u manifest = .ok r) ↔ CountsUp u manifest := by
  by_cases hlist : ∃ layers, Json.get? manifest "layers" = some (.arr layers)
  · obtain ⟨layers, hlayers⟩ := hlist
    have hcounts : CountsUp u manifest ↔
        ∀ counted ∈ objectsOf layers ++ configOf manifest, ∃ n, declaredSize u counted = .ok n := by
      unfold CountsUp
      simp only [declaredSize_ok_iff]
      constructor
      · intro h
        exact h layers hlayers
      · intro h layers' hlayers'
        rw [hlayers] at hlayers'
        cases hlayers'
        exact h
    rw [hcounts, ← sizes_exist_iff]
    constructor
    · intro h
      obtain ⟨r, hr⟩ := h
      obtain ⟨total, _, hdeclares⟩ := (layersTotal_list hlayers r).mp hr
      obtain ⟨layers', sizes, hlayers', hsizes, _⟩ := hdeclares
      rw [hlayers] at hlayers'
      cases hlayers'
      exact ⟨sizes, hsizes⟩
    · intro h
      obtain ⟨sizes, hsizes⟩ := h
      exact ⟨some sizes.sum, (layersTotal_list hlayers _).mpr
        ⟨sizes.sum, rfl, layers, sizes, hlayers, hsizes, rfl⟩⟩
  · have hnone : ∀ layers, Json.get? manifest "layers" ≠ some (.arr layers) :=
      fun layers hlayers => hlist ⟨layers, hlayers⟩
    refine iff_of_true ⟨none, layersTotal_no_list hnone⟩ ?_
    intro layers hlayers
    exact absurd hlayers (hnone layers)

theorem layersTotal_some {total : Int} (h : layersTotal u manifest = .ok (some total)) :
    Declares u manifest total := by
  by_cases hlist : ∃ layers, Json.get? manifest "layers" = some (.arr layers)
  · obtain ⟨layers, hlayers⟩ := hlist
    obtain ⟨total', htotal, hdeclares⟩ := (layersTotal_list hlayers _).mp h
    cases htotal
    exact hdeclares
  · rw [layersTotal_no_list fun layers hlayers => hlist ⟨layers, hlayers⟩] at h
    cases h

theorem layersTotal_none (h : layersTotal u manifest = .ok none) :
    ∀ layers, Json.get? manifest "layers" ≠ some (.arr layers) := by
  intro layers hlayers
  obtain ⟨total, htotal, _⟩ := (layersTotal_list hlayers none).mp h
  cases htotal

end Layers

/-! ### The platform of an index -/

section Platforms

variable {entry platform : List (PyStr × Json)}

/-- The test of `_manifest_total_size` on a platform. -/
def isExpected (platform : List (PyStr × Json)) : Bool :=
  let is (key expected : String) : Bool := match Json.get? platform key with
    | some (.str s) => s == PyStr.ofString expected
    | _ => false
  is "architecture" EXPECTED_ARCH && is "os" EXPECTED_OS

theorem platformDigest_obj (entry : List (PyStr × Json)) (rest : List Json) :
    platformDigest (.obj entry :: rest) = (do
      let platform ← getObject entry "platform"
      if isExpected platform then return truthyOrNone (Json.get? entry "digest")
      else platformDigest rest) := rfl

theorem isExpected_iff (platform : List (PyStr × Json)) : isExpected platform = true ↔
    Json.get? platform "architecture" = some (.str (PyStr.ofString EXPECTED_ARCH)) ∧
      Json.get? platform "os" = some (.str (PyStr.ofString EXPECTED_OS)) := by
  unfold isExpected
  dsimp only
  rw [Bool.and_eq_true]
  constructor
  · intro h
    obtain ⟨harch, hos⟩ := h
    split at harch
    · split at hos
      · rename_i harch' _ _ hos'
        rw [harch', hos', eq_of_beq harch, eq_of_beq hos]
        exact ⟨rfl, rfl⟩
      · cases hos
    · cases harch
  · intro h
    rw [h.1, h.2]
    exact ⟨beq_self_eq_true _, beq_self_eq_true _⟩

theorem getObject_obj {data items : List (PyStr × Json)} {key : String}
    (h : Json.get? data key = some (.obj items)) : getObject data key = .ok items := by
  unfold getObject
  rw [h]
  cases items with
  | nil => rfl
  | cons first rest => rfl

/-- What is no object reads as an empty one, or not at all. -/
theorem getObject_other {data items : List (PyStr × Json)} {key : String}
    (h : ∀ found, Json.get? data key ≠ some (.obj found)) (hitems : getObject data key = .ok items) :
    items = [] := by
  unfold getObject at hitems
  split at hitems
  · cases hitems
    rfl
  · rename_i hfound
    obtain ⟨hget, _⟩ := Option.filter_eq_some_iff.mp hfound
    exact absurd hget (h _)
  · cases hitems

theorem expected_iff (h : getObject entry "platform" = .ok platform) :
    isExpected platform = true ↔ Expected entry := by
  rw [isExpected_iff]
  by_cases hobj : ∃ found, Json.get? entry "platform" = some (.obj found)
  · obtain ⟨found, hfound⟩ := hobj
    rw [getObject_obj hfound] at h
    cases h
    constructor
    · intro hboth
      exact ⟨_, hfound, hboth⟩
    · intro hexpected
      obtain ⟨found', hfound', hboth⟩ := hexpected
      rw [hfound] at hfound'
      cases hfound'
      exact hboth
  · have hempty := getObject_other (fun found hfound => hobj ⟨found, hfound⟩) h
    rw [hempty]
    refine iff_of_false ?_ ?_
    · intro hboth
      cases hboth.1
    · intro hexpected
      obtain ⟨found, hfound, _⟩ := hexpected
      exact hobj ⟨found, hfound⟩

theorem platformDigest_ok_iff (manifests : List Json) :
    (∃ r, platformDigest manifests = .ok r) ↔ PlatformsRead manifests := by
  induction manifests with
  | nil => exact iff_of_true ⟨none, rfl⟩ trivial
  | cons first rest ih =>
    cases first with
    | obj entry =>
      rw [platformDigest_obj]
      constructor
      · intro h
        obtain ⟨r, hr⟩ := h
        obtain ⟨platform, hplatform, hr⟩ := except_bind_ok hr
        refine ⟨⟨platform, hplatform⟩, ?_⟩
        intro hother
        rw [if_neg ((expected_iff hplatform).not.mpr hother)] at hr
        exact ih.mp ⟨r, hr⟩
      · intro h
        obtain ⟨⟨platform, hplatform⟩, hrest⟩ := h
        by_cases hexpected : Expected entry
        · refine ⟨truthyOrNone (Json.get? entry "digest"), ok_bind hplatform ?_⟩
          rw [if_pos ((expected_iff hplatform).mpr hexpected)]
          rfl
        · obtain ⟨r, hr⟩ := ih.mpr (hrest hexpected)
          refine ⟨r, ok_bind hplatform ?_⟩
          rw [if_neg ((expected_iff hplatform).not.mpr hexpected)]
          exact hr
    | null => exact ih
    | bool b => exact ih
    | int n => exact ih
    | float x => exact ih
    | str s => exact ih
    | arr items => exact ih

/-- With the platforms read, the digest that is found is the first expected entry's. -/
theorem platformDigest_some_iff {manifests : List Json} (digest : Json)
    (h : PlatformsRead manifests) :
    platformDigest manifests = .ok (some digest) ↔ FirstDigest digest manifests := by
  induction manifests with
  | nil =>
    refine iff_of_false ?_ (fun h => h)
    intro hsome
    cases hsome
  | cons first rest ih =>
    cases first with
    | obj entry =>
      obtain ⟨⟨platform, hplatform⟩, hrest⟩ := h
      rw [platformDigest_obj, hplatform]
      show (if isExpected platform then pure (truthyOrNone (Json.get? entry "digest"))
        else platformDigest rest) = Except.ok (some digest) ↔ _
      by_cases hexpected : Expected entry
      · rw [if_pos ((expected_iff hplatform).mpr hexpected)]
        constructor
        · intro hsome
          exact .inl ⟨hexpected, Except.ok.inj hsome⟩
        · intro hfirst
          rcases hfirst with hhere | hlater
          · exact congrArg Except.ok hhere.2
          · exact absurd hexpected hlater.1
      · rw [if_neg ((expected_iff hplatform).not.mpr hexpected), ih (hrest hexpected)]
        constructor
        · intro hlater
          exact .inr ⟨hexpected, hlater⟩
        · intro hfirst
          rcases hfirst with hhere | hlater
          · exact absurd hhere.1 hexpected
          · exact hlater.2
    | null => exact ih h
    | bool b => exact ih h
    | int n => exact ih h
    | float x => exact ih h
    | str s => exact ih h
    | arr items => exact ih h

end Platforms

/-! ## The reads -/

/-- The end of a best-effort step: it returns, or finds that Docker is not there. -/
def Determined {α : Type} (r : Except Halt α) : Prop :=
  ∀ e, r = .error e → ∃ detail, e = .stage ⟨.dockerUnavailable, detail⟩

theorem determined_ok {α : Type} (a : α) : Determined (.ok a : Except Halt α) := by
  intro e he
  cases he

theorem determined_bind {α β : Type} {x : Prog (World δ) Halt α} {f : α → Prog (World δ) Halt β}
    {w : World δ} : Determined ((x >>= f) w).1 ↔
      Determined (x w).1 ∧ ∀ a w', x w = (.ok a, w') → Determined (f a w').1 := by
  rcases hx : x w with ⟨e | a, w'⟩
  · rw [Prog.bind_error hx]
    constructor
    · intro h
      refine ⟨?_, ?_⟩
      · intro e' he'
        cases he'
        exact h e rfl
      · intro a w'' hok
        cases hok
    · intro h e' he'
      cases he'
      exact h.1 e rfl
  · rw [Prog.bind_ok hx]
    constructor
    · intro h
      refine ⟨determined_ok a, ?_⟩
      intro a' w'' hok
      cases hok
      exact h
    · intro h
      exact h.2 a w' rfl

theorem determined_orRaise {α : Type} (r : Except Exc α) (w : World δ) :
    Determined (orRaise r w).1 ↔ ∃ a, r = .ok a := by
  cases r with
  | ok a => exact iff_of_true (determined_ok a) ⟨a, rfl⟩
  | error e =>
    refine iff_of_false ?_ ?_
    · intro h
      obtain ⟨detail, hdetail⟩ := h (.raised e) rfl
      cases hdetail
    · intro h
      obtain ⟨a, ha⟩ := h
      cases ha

/-- A read gives an object exactly when the command prints one. -/
theorem manifestJson_some_iff {ref : String} {w w' : World δ} {data : List (PyStr × Json)} :
    manifestJson o py ref w = (.ok (some data), w') ↔
      ReadGives py (o.docker w.outside (manifestArgs ref)).1 data ∧
        w' = commanded o (manifestArgs ref) w := by
  unfold manifestJson
  constructor
  · intro h
    obtain ⟨result, w₁, hresult, hrest⟩ := Prog.bind_eq_ok h
    rw [runDocker_commanded] at hresult
    obtain ⟨hanswer, hw₁⟩ := Prod.mk.inj hresult
    split at hrest
    · cases (Prod.mk.inj hrest).1
    · rename_i hcode
      cases hloads : Json.loadsText py.recursionLimit (PyStr.ofString result.stdout) with
      | error e =>
        rw [hloads] at hrest
        dsimp only at hrest
        split at hrest
        · cases (Prod.mk.inj hrest).1
        · cases (Prod.mk.inj hrest).1
      | ok value =>
        rw [hloads] at hrest
        cases value with
        | obj items =>
          obtain ⟨hdata, hw'⟩ := Prod.mk.inj hrest
          cases hdata
          refine ⟨⟨result, ?_, not_not.mp hcode, hloads⟩, hw'.symm.trans hw₁.symm⟩
          -- With the daemon up, the result is the answer.
          unfold dockerResult at hanswer
          split at hanswer
          · cases hanswer
          · split at hanswer
            · cases hanswer
            · cases hanswer
              assumption
        | null => cases (Prod.mk.inj hrest).1
        | bool b => cases (Prod.mk.inj hrest).1
        | int n => cases (Prod.mk.inj hrest).1
        | float x => cases (Prod.mk.inj hrest).1
        | str s => cases (Prod.mk.inj hrest).1
        | arr items => cases (Prod.mk.inj hrest).1
  · intro h
    obtain ⟨⟨result, hanswer, hcode, hloads⟩, hw'⟩ := h
    have hrun : runDocker o (manifestArgs ref) DOCKER_CLI_TIMEOUT_S .pullFailed w =
        (.ok result, commanded o (manifestArgs ref) w) := by
      rw [runDocker_commanded, hanswer]
      unfold dockerResult
      dsimp only
      rw [if_neg fun hdown => hdown.1 hcode]
    rw [Prog.bind_ok hrun, if_neg (not_not.mpr hcode), hloads, hw']
    rfl

/-- A read, up to what is made of it. -/
theorem determined_read {α : Type} (f : Option (List (PyStr × Json)) → Prog (World δ) Halt α)
    (ref : String) (w : World δ) (hnone : ∀ w', Determined (f none w').1) :
    Determined ((manifestJson o py ref >>= f) w).1 ↔
      ReadsAs py (o.docker w.outside (manifestArgs ref)).1 fun data =>
        Determined (f (some data) (commanded o (manifestArgs ref) w)).1 := by
  have hrun := runDocker_commanded (o := o) (manifestArgs ref) DOCKER_CLI_TIMEOUT_S .pullFailed w
  unfold manifestJson
  rw [Prog.bind_assoc]
  cases hanswer : (o.docker w.outside (manifestArgs ref)).1 with
  | error e =>
    rw [hanswer] at hrun
    rw [Prog.bind_error hrun]
    have hreads : ReadsAs py (.error e) (fun data =>
        Determined (f (some data) (commanded o (manifestArgs ref) w)).1) ↔
        e.cls.isOSError = true := by
      constructor
      · intro h
        rcases h with hos | hok
        · obtain ⟨e', he', hos⟩ := hos
          cases he'
          exact hos
        · obtain ⟨result, hresult, _⟩ := hok
          cases hresult
      · intro hos
        exact .inl ⟨e, rfl, hos⟩
    rw [hreads]
    unfold dockerFailure
    constructor
    · intro h
      obtain ⟨detail, hdetail⟩ := h _ rfl
      split at hdetail
      · cases hdetail
      · split at hdetail
        · assumption
        · cases hdetail
    · intro hos e' he'
      -- A timeout is no `OSError`.
      have htimeout : e.cls ≠ .timeoutExpired := by
        intro htimeout
        rw [htimeout] at hos
        cases hos
      rw [if_neg htimeout, if_pos hos] at he'
      cases he'
      exact ⟨_, rfl⟩
  | ok result =>
    rw [hanswer] at hrun
    unfold dockerResult at hrun
    dsimp only at hrun
    by_cases hcode : result.returncode = 0
    · rw [if_neg fun hdown => hdown.1 hcode] at hrun
      rw [Prog.bind_ok hrun, if_neg (not_not.mpr hcode)]
      -- The answer's text is all that is left to look at.
      have hreads : ∀ P, ReadsAs py (.ok result) P ↔
          (∀ e, Json.loadsText py.recursionLimit (PyStr.ofString result.stdout) = .error e →
            e.cls.isValueError = true) ∧
          ∀ data, Json.loadsText py.recursionLimit (PyStr.ofString result.stdout) =
            .ok (.obj data) → P data := by
        intro P
        constructor
        · intro h
          rcases h with hos | hok
          · obtain ⟨e, he, _⟩ := hos
            cases he
          · obtain ⟨result', hresult', htext⟩ := hok
            cases hresult'
            exact htext hcode
        · intro htext
          exact .inr ⟨result, rfl, fun _ => htext⟩
      rw [hreads]
      cases hloads : Json.loadsText py.recursionLimit (PyStr.ofString result.stdout) with
      | error e =>
        by_cases hvalue : e.cls.isValueError = true
        · refine iff_of_true ?_ ⟨?_, ?_⟩
          · dsimp only
            rw [if_pos hvalue]
            exact hnone _
          · intro e' he'
            cases he'
            exact hvalue
          · intro data hdata
            cases hdata
        · refine iff_of_false ?_ ?_
          · dsimp only
            rw [if_neg hvalue]
            intro h
            obtain ⟨detail, hdetail⟩ := h _ rfl
            cases hdetail
          · intro h
            exact hvalue (h.1 e rfl)
      | ok value =>
        have hother : (∀ data, value ≠ .obj data) → ((∀ e : Exc, Except.ok value = Except.error e →
            e.cls.isValueError = true) ∧ ∀ data, Except.ok (ε := Exc) value = .ok (.obj data) →
              Determined (f (some data) (commanded o (manifestArgs ref) w)).1) := by
          intro hno
          refine ⟨?_, ?_⟩
          · intro e he
            cases he
          · intro data hdata
            exact absurd (Except.ok.inj hdata) (hno data)
        cases value with
        | obj data =>
          constructor
          · intro h
            refine ⟨?_, ?_⟩
            · intro e he
              cases he
            · intro data' hdata'
              cases hdata'
              exact h
          · intro h
            exact h.2 data rfl
        | null => exact iff_of_true (hnone _) (hother (by intro data h; cases h))
        | bool b => exact iff_of_true (hnone _) (hother (by intro data h; cases h))
        | int n => exact iff_of_true (hnone _) (hother (by intro data h; cases h))
        | float x => exact iff_of_true (hnone _) (hother (by intro data h; cases h))
        | str s => exact iff_of_true (hnone _) (hother (by intro data h; cases h))
        | arr items => exact iff_of_true (hnone _) (hother (by intro data h; cases h))
    · have hreads : ReadsAs py (.ok result) (fun data =>
          Determined (f (some data) (commanded o (manifestArgs ref) w)).1) :=
        .inr ⟨result, rfl, fun hzero => absurd hzero hcode⟩
      refine iff_of_true ?_ hreads
      split at hrun
      · rw [Prog.bind_error hrun]
        intro e he
        cases he
        exact ⟨_, rfl⟩
      · rw [Prog.bind_ok hrun, if_pos hcode]
        exact hnone _

/-! ## The size of an image -/

theorem orRaise_eq_ok {α : Type} {r : Except Exc α} {a : α} {w w' : World δ}
    (h : orRaise r w = (.ok a, w')) : r = .ok a ∧ w' = w := by
  cases r with
  | error e => cases (Prod.mk.inj h).1
  | ok b =>
    obtain ⟨ha, hw⟩ := Prod.mk.inj h
    cases ha
    exact ⟨rfl, hw.symm⟩

theorem orRaise_of_ok {α : Type} {r : Except Exc α} {a : α} (h : r = .ok a) (w : World δ) :
    orRaise r w = (.ok a, w) := by
  rw [h]
  rfl

/-- What is made of the platform's manifest. -/
def totalOfPlatform (py : Interpreter) :
    Option (List (PyStr × Json)) → Prog (World δ) Halt (Option Int)
  | none => pure none
  | some manifest =>
    if manifest.isEmpty then pure none else orRaise (layersTotal py.unicode manifest)

/-- What is made of an index. -/
def totalOfIndex (o : Outside δ) (py : Interpreter) (ref : String) (manifests : List Json) :
    Prog (World δ) Halt (Option Int) :=
  orRaise (platformDigest manifests) >>= fun found => match found with
    | none => pure none
    | some digest =>
      orRaise (subRef py ref digest) >>= fun sub => manifestJson o py sub >>= totalOfPlatform py

/-- What is made of the entries an object may have for manifests. -/
def totalOfEntries (o : Outside δ) (py : Interpreter) (ref : String) :
    Option Json → Prog (World δ) Halt (Option Int)
  | some (.arr manifests) => totalOfIndex o py ref manifests
  | _ => pure none

/-- What is made of the first read. -/
def totalOfRead (o : Outside δ) (py : Interpreter) (ref : String) :
    Option (List (PyStr × Json)) → Prog (World δ) Halt (Option Int)
  | none => pure none
  | some data => orRaise (layersTotal py.unicode data) >>= fun direct => match direct with
    | some total => pure (some total)
    | none => totalOfEntries o py ref (Json.get? data "manifests")

theorem totalOfEntries_other {ref : String} {value : Option Json}
    (h : ∀ manifests, value ≠ some (.arr manifests)) :
    totalOfEntries o py ref value = pure none := by
  unfold totalOfEntries
  split
  · exact absurd rfl (h _)
  · rfl

theorem manifestTotalSize_eq (ref : String) :
    manifestTotalSize o py ref = manifestJson o py ref >>= totalOfRead o py ref := by
  unfold manifestTotalSize
  refine congrArg (manifestJson o py ref >>= ·) (funext fun found => ?_)
  cases found with
  | none => rfl
  | some data =>
    refine congrArg (orRaise (layersTotal py.unicode data) >>= ·) (funext fun direct => ?_)
    cases direct with
    | some total => rfl
    | none =>
      dsimp only
      by_cases hlist : ∃ manifests, Json.get? data "manifests" = some (.arr manifests)
      · obtain ⟨manifests, hmanifests⟩ := hlist
        rw [hmanifests]
        refine congrArg (orRaise (platformDigest manifests) >>= ·) (funext fun digest => ?_)
        cases digest with
        | none => rfl
        | some digest =>
          refine congrArg (orRaise (argumentOf _) >>= ·) (funext fun sub => ?_)
          refine congrArg (manifestJson o py sub >>= ·) (funext fun manifest => ?_)
          cases manifest with
          | none => rfl
          | some manifest => rfl
      · have hno : ∀ manifests, Json.get? data "manifests" ≠ some (.arr manifests) :=
          fun manifests hmanifests => hlist ⟨manifests, hmanifests⟩
        rw [totalOfEntries_other hno]
        split
        · exact absurd (by assumption) (hno _)
        · rfl

theorem determined_totalOfPlatform (manifest : List (PyStr × Json)) (w : World δ) :
    Determined (totalOfPlatform py (some manifest) w).1 ↔ CountsUp py.unicode manifest := by
  unfold totalOfPlatform
  dsimp only
  by_cases hempty : manifest.isEmpty = true
  · rw [if_pos hempty]
    refine iff_of_true (determined_ok _) ?_
    intro layers hlayers
    rw [List.isEmpty_iff.mp hempty] at hlayers
    cases hlayers
  · rw [if_neg hempty, determined_orRaise]
    exact layersTotal_ok_iff

theorem determined_totalOfIndex (ref : String) (manifests : List Json) (w : World δ) :
    Determined (totalOfIndex o py ref manifests w).1 ↔
      IndexReads o py ref w.outside manifests := by
  unfold totalOfIndex
  rw [determined_bind, determined_orRaise, platformDigest_ok_iff]
  unfold IndexReads
  have hread : ∀ sub, Determined ((manifestJson o py sub >>= totalOfPlatform py) w).1 ↔
      ReadsAs py (o.docker w.outside (manifestArgs sub)).1 (CountsUp py.unicode) := by
    intro sub
    rw [determined_read _ _ _ fun _ => determined_ok _]
    simp only [determined_totalOfPlatform]
  refine and_congr_right fun hplatforms => ?_
  constructor
  · intro h digest hdigest
    have hfound := (platformDigest_some_iff digest hplatforms).mpr hdigest
    have hsub := h (some digest) w (by rw [hfound]; rfl)
    dsimp only at hsub
    rw [determined_bind, determined_orRaise] at hsub
    obtain ⟨⟨sub, hok⟩, hsub⟩ := hsub
    exact ⟨sub, hok, (hread sub).mp (hsub sub w (by rw [hok]; rfl))⟩
  · intro h found w' hfound
    obtain ⟨hfound, hw'⟩ := orRaise_eq_ok hfound
    rw [hw']
    cases found with
    | none => exact determined_ok _
    | some digest =>
      obtain ⟨sub, hok, hreads⟩ := h digest ((platformDigest_some_iff digest hplatforms).mp hfound)
      dsimp only
      rw [determined_bind, determined_orRaise]
      refine ⟨⟨sub, hok⟩, ?_⟩
      intro sub' w'' hsub'
      obtain ⟨hsub', hw''⟩ := orRaise_eq_ok hsub'
      rw [hok] at hsub'
      cases hsub'
      rw [hw'']
      exact (hread sub).mpr hreads

theorem determined_manifestTotalSize (ref : String) (w : World δ) :
    Determined (manifestTotalSize o py ref w).1 ↔ SizeReads o py ref w.outside := by
  rw [manifestTotalSize_eq, determined_read _ _ _ fun _ => determined_ok _]
  unfold SizeReads
  refine iff_of_eq (congrArg _ (funext fun data => propext ?_))
  unfold totalOfRead
  dsimp only
  rw [determined_bind, determined_orRaise, layersTotal_ok_iff]
  refine and_congr_right fun hcounts => ?_
  constructor
  · intro h hnone manifests hmanifests
    have hindex := h none _ (by rw [layersTotal_no_list hnone]; rfl)
    dsimp only at hindex
    rw [hmanifests] at hindex
    exact (determined_totalOfIndex ref manifests _).mp hindex
  · intro h direct w' hdirect
    obtain ⟨hdirect, hw'⟩ := orRaise_eq_ok hdirect
    cases direct with
    | some total => exact determined_ok _
    | none =>
      dsimp only
      by_cases hlist : ∃ manifests, Json.get? data "manifests" = some (.arr manifests)
      · obtain ⟨manifests, hmanifests⟩ := hlist
        rw [hmanifests, hw']
        exact (determined_totalOfIndex ref manifests _).mpr
          (h (layersTotal_none hdirect) manifests hmanifests)
      · rw [totalOfEntries_other fun manifests hmanifests => hlist ⟨manifests, hmanifests⟩]
        exact determined_ok _

theorem totalOfPlatform_some_iff {found : Option (List (PyStr × Json))} {total : Int}
    {w w' : World δ} : totalOfPlatform py found w = (.ok (some total), w') ↔
      (∃ manifest, found = some manifest ∧ Declares py.unicode manifest total) ∧ w' = w := by
  cases found with
  | none =>
    refine iff_of_false ?_ ?_
    · intro h
      cases (Prod.mk.inj h).1
    · intro h
      obtain ⟨⟨manifest, hmanifest, _⟩, _⟩ := h
      cases hmanifest
  | some manifest =>
    unfold totalOfPlatform
    dsimp only
    constructor
    · intro h
      split at h
      · cases (Prod.mk.inj h).1
      · obtain ⟨htotal, hw'⟩ := orRaise_eq_ok h
        exact ⟨⟨manifest, rfl, layersTotal_some htotal⟩, hw'⟩
    · intro h
      obtain ⟨⟨manifest', hmanifest, hdeclares⟩, hw'⟩ := h
      cases hmanifest
      obtain ⟨layers, sizes, hlayers, hsizes, htotal⟩ := hdeclares
      rw [if_neg ?_, (layersTotal_list hlayers _).mpr
        ⟨total, rfl, layers, sizes, hlayers, hsizes, htotal⟩, hw']
      · rfl
      · intro hempty
        rw [List.isEmpty_iff.mp hempty] at hlayers
        cases hlayers

/-- A size that is told is declared. -/
theorem declaredSize_of_told {ref : String} {total : Int} {w w' : World δ}
    (h : manifestTotalSize o py ref w = (.ok (some total), w')) :
    DeclaredSize o py ref w.outside total := by
  rw [manifestTotalSize_eq] at h
  obtain ⟨found, w₁, hfound, h⟩ := Prog.bind_eq_ok h
  cases found with
  | none => cases (Prod.mk.inj h).1
  | some data =>
    obtain ⟨hgives, hw₁⟩ := manifestJson_some_iff.mp hfound
    refine ⟨data, hgives, ?_⟩
    obtain ⟨direct, w₂, hdirect, h⟩ := Prog.bind_eq_ok h
    obtain ⟨hdirect, hw₂⟩ := orRaise_eq_ok hdirect
    cases direct with
    | some total' =>
      cases (Prod.mk.inj h).1
      exact .inl (layersTotal_some hdirect)
    | none =>
      refine .inr ⟨layersTotal_none hdirect, ?_⟩
      dsimp only at h
      by_cases hlist : ∃ manifests, Json.get? data "manifests" = some (.arr manifests)
      · obtain ⟨manifests, hmanifests⟩ := hlist
        rw [hmanifests] at h
        obtain ⟨digest, w₃, hdigest, h⟩ := Prog.bind_eq_ok h
        obtain ⟨hdigest, hw₃⟩ := orRaise_eq_ok hdigest
        cases digest with
        | none => cases (Prod.mk.inj h).1
        | some digest =>
          obtain ⟨sub, w₄, hsub, h⟩ := Prog.bind_eq_ok h
          obtain ⟨hsub, hw₄⟩ := orRaise_eq_ok hsub
          obtain ⟨manifest, w₅, hmanifest, h⟩ := Prog.bind_eq_ok h
          obtain ⟨⟨manifest', hsome, hdeclares⟩, _⟩ := totalOfPlatform_some_iff.mp h
          rw [hsome] at hmanifest
          obtain ⟨hgives', _⟩ := manifestJson_some_iff.mp hmanifest
          rw [hw₄, hw₃, hw₂, hw₁] at hgives'
          exact ⟨manifests, digest, sub, manifest', hmanifests,
            (platformDigest_some_iff digest (platformDigest_ok_iff manifests |>.mp ⟨_, hdigest⟩)).mp
              hdigest, hsub, hgives', hdeclares⟩
      · rw [totalOfEntries_other fun manifests hmanifests => hlist ⟨manifests, hmanifests⟩] at h
        cases (Prod.mk.inj h).1

/-- The second reference a check asks about: the index the first read gives leads to it. -/
def SubAsked (o : Outside δ) (py : Interpreter) (ref : String) (d : δ) (sub : String) : Prop :=
  ∃ data manifests digest, ReadGives py (o.docker d (manifestArgs ref)).1 data ∧
    (∀ layers, Json.get? data "layers" ≠ some (.arr layers)) ∧
    Json.get? data "manifests" = some (.arr manifests) ∧ PlatformsRead manifests ∧
    FirstDigest digest manifests ∧ subRef py ref digest = .ok sub

/-- With a second reference to ask about, the second read is all that is left. -/
theorem manifestTotalSize_index {ref sub : String} {w : World δ}
    (h : SubAsked o py ref w.outside sub) : manifestTotalSize o py ref w =
      (manifestJson o py sub >>= totalOfPlatform py) (commanded o (manifestArgs ref) w) := by
  obtain ⟨data, manifests, digest, hgives, hnone, hmanifests, hplatforms, hdigest, hsub⟩ := h
  have hfound := (platformDigest_some_iff digest hplatforms).mpr hdigest
  rw [manifestTotalSize_eq, Prog.bind_ok (manifestJson_some_iff.mpr ⟨hgives, rfl⟩)]
  unfold totalOfRead
  dsimp only
  rw [Prog.bind_ok (orRaise_of_ok (layersTotal_no_list hnone) _)]
  dsimp only
  rw [hmanifests]
  unfold totalOfEntries totalOfIndex
  dsimp only
  rw [Prog.bind_ok (orRaise_of_ok hfound _)]
  dsimp only
  rw [Prog.bind_ok (orRaise_of_ok hsub _)]

/-- What a read gives is what was asked of it. -/
theorem ReadsAs.of_gives {answer : Outcome} {P : List (PyStr × Json) → Prop}
    (h : ReadsAs py answer P) {data : List (PyStr × Json)} (hgives : ReadGives py answer data) :
    P data := by
  obtain ⟨result, hanswer, hcode, hloads⟩ := hgives
  rcases h with hos | hok
  · obtain ⟨e, he, _⟩ := hos
    rw [hanswer] at he
    cases he
  · obtain ⟨result', hanswer', htext⟩ := hok
    rw [hanswer] at hanswer'
    cases hanswer'
    exact (htext hcode).2 data hloads

/-- A declared size is told, where the reads end well. -/
theorem told_of_declaredSize {ref : String} {total : Int} {w : World δ}
    (hreads : SizeReads o py ref w.outside) (h : DeclaredSize o py ref w.outside total) :
    ∃ w', manifestTotalSize o py ref w = (.ok (some total), w') := by
  obtain ⟨data, hgives, h⟩ := h
  rcases h with hdirect | ⟨hnone, hindex⟩
  · obtain ⟨layers, sizes, hlayers, hsizes, htotal⟩ := hdirect
    rw [manifestTotalSize_eq, Prog.bind_ok (manifestJson_some_iff.mpr ⟨hgives, rfl⟩)]
    unfold totalOfRead
    dsimp only
    rw [(layersTotal_list hlayers _).mpr ⟨total, rfl, layers, sizes, hlayers, hsizes, htotal⟩]
    exact ⟨_, rfl⟩
  · obtain ⟨manifests, digest, sub, manifest, hmanifests, hdigest, hsub, hgives', hdeclares⟩ :=
      hindex
    obtain ⟨hplatforms, _⟩ := (hreads.of_gives hgives).2 hnone manifests hmanifests
    rw [manifestTotalSize_index
      ⟨data, manifests, digest, hgives, hnone, hmanifests, hplatforms, hdigest, hsub⟩,
      Prog.bind_ok (manifestJson_some_iff.mpr ⟨hgives', rfl⟩)]
    exact ⟨_, totalOfPlatform_some_iff.mpr ⟨⟨manifest, rfl, hdeclares⟩, rfl⟩⟩

/-! ## The pull -/

/-- `pull_image` from `docker pull` on. -/
def fetchPinned (o : Outside δ) (ref : String) : Prog (World δ) Halt PulledImage := do
  let result ← runDocker o (pullArgs ref) REGISTRY_PULL_TIMEOUT_S .pullFailed
  if result.returncode ≠ 0 then
    failStage (classifyPullFailure result.stderr) (some (excerpt result.stderr))
  else
    let digestRef ← digestRefOf o ref
    let _ ← assertSafeImageRef digestRef
    return ⟨ref, digestRef, digestRef⟩

theorem pullImage_eq {ref : String} (h : isSafeImageRef ref = true) :
    pullImage o py ref = boundDownload o py ref >>= fun _ => fetchPinned o ref := by
  unfold pullImage assertSubmittableRef
  rw [if_pos h]
  rfl

/-- The ends a pull is meant to have: it refuses a declared size over the cap, or goes on to
    `docker pull` in the world the reads leave, where no declared size is over it; or the daemon is
    reported as down. -/
inductive BoundedPull (o : Outside δ) (py : Interpreter) (ref : String) (w : World δ) : Prop
  | refused (total : Int) (detail : Option String)
      (declared : DeclaredSize o py ref w.outside total) (exceeds : REGISTRY_MAX_MANIFEST_BYTES < total)
      (ends : (pullImage o py ref w).1 = .error (.stage ⟨.imageTooLarge, detail⟩))
  | proceeds (w' : World δ)
      (within : ∀ total, DeclaredSize o py ref w.outside total → total ≤ REGISTRY_MAX_MANIFEST_BYTES)
      (bounded : boundDownload o py ref w = (.ok (), w'))
      (ends : pullImage o py ref w = fetchPinned o ref w')
  | down (detail : Option String)
      (bounded : (boundDownload o py ref w).1 = .error (.stage ⟨.dockerUnavailable, detail⟩))
      (ends : (pullImage o py ref w).1 = .error (.stage ⟨.dockerUnavailable, detail⟩))

/-- No refusal of a size: what the reads themselves can raise. -/
def NotTooLarge (e : Halt) : Prop := ∀ detail, e ≠ .stage ⟨.imageTooLarge, detail⟩

section Refusals

variable {P : World δ → Prop}

theorem spec_orRaise {α : Type} (r : Except Exc α) :
    Prog.Spec P (orRaise r) (fun _ _ => True) (fun e _ => NotTooLarge e) := by
  cases r with
  | ok a => exact .ret fun _ _ => trivial
  | error e =>
    refine .raise fun _ _ detail h => ?_
    cases h

theorem spec_manifestJson (ref : String) :
    Prog.Spec P (manifestJson o py ref) (fun _ _ => True) (fun e _ => NotTooLarge e) := by
  unfold manifestJson
  have hrun : Prog.Spec P (runDocker o (manifestArgs ref) DOCKER_CLI_TIMEOUT_S .pullFailed)
      (fun _ _ => True) (fun e _ => NotTooLarge e) := by
    intro w _
    rw [runDocker_commanded]
    unfold dockerResult
    cases (o.docker w.outside (manifestArgs ref)).1 with
    | error e =>
      intro detail h
      unfold dockerFailure at h
      split at h
      · cases h
      · split at h
        · cases h
        · cases h
    | ok result =>
      dsimp only
      by_cases hdown : result.returncode ≠ 0 ∧ looksLikeDaemonDown result.stderr
      · rw [if_pos hdown]
        intro detail h
        cases h
      · rw [if_neg hdown]
        trivial
  refine hrun.bind fun result => .ite (.ret fun _ _ => trivial) ?_
  cases Json.loadsText py.recursionLimit (PyStr.ofString result.stdout) with
  | error e =>
    refine .ite (.ret fun _ _ => trivial) (.raise fun _ _ detail h => ?_)
    cases h
  | ok value => cases value <;> exact .ret fun _ _ => trivial

theorem spec_manifestTotalSize (ref : String) :
    Prog.Spec P (manifestTotalSize o py ref) (fun _ _ => True) (fun e _ => NotTooLarge e) := by
  rw [manifestTotalSize_eq]
  refine (spec_manifestJson ref).bind fun found => ?_
  cases found with
  | none => exact .ret fun _ _ => trivial
  | some data =>
    refine (spec_orRaise _).bind fun direct => ?_
    cases direct with
    | some total => exact .ret fun _ _ => trivial
    | none =>
      by_cases hlist : ∃ manifests, Json.get? data "manifests" = some (.arr manifests)
      · obtain ⟨manifests, hmanifests⟩ := hlist
        rw [hmanifests]
        refine (spec_orRaise _).bind fun digest => ?_
        cases digest with
        | none => exact .ret fun _ _ => trivial
        | some digest =>
          refine (spec_orRaise _).bind fun sub => (spec_manifestJson sub).bind fun manifest => ?_
          cases manifest with
          | none => exact .ret fun _ _ => trivial
          | some manifest => exact .ite (.ret fun _ _ => trivial) (spec_orRaise _)
      · rw [totalOfEntries_other fun manifests hmanifests => hlist ⟨manifests, hmanifests⟩]
        exact .ret fun _ _ => trivial

end Refusals

/-- Where the size is read, a declared total has one value. -/
theorem declaredSize_unique {ref : String} {total total' : Int} {w w' : World δ}
    (hreads : SizeReads o py ref w.outside)
    (htold : manifestTotalSize o py ref w = (.ok (some total), w'))
    (h : DeclaredSize o py ref w.outside total') : total' = total := by
  obtain ⟨w'', htold'⟩ := told_of_declaredSize hreads h
  rw [htold] at htold'
  cases (Prod.mk.inj htold').1
  rfl

theorem cap_writable {total : Int} (h : total ≤ REGISTRY_MAX_MANIFEST_BYTES) :
    total < 10 ^ PyStr.maxIntDigits := by
  have hcap : REGISTRY_MAX_MANIFEST_BYTES < (10 : Int) ^ 10 := by decide
  have hpow : (10 : Int) ^ 10 ≤ 10 ^ PyStr.maxIntDigits :=
    pow_le_pow_right₀ (by decide) (by decide)
  omega

/-- A size over the cap can be written exactly when it is not too long. -/
theorem tooLong_iff {total : Int} (h : REGISTRY_MAX_MANIFEST_BYTES < total) :
    tooLong total = true ↔ ¬ total < 10 ^ PyStr.maxIntDigits := by
  have hcap : (0 : Int) ≤ REGISTRY_MAX_MANIFEST_BYTES := by decide
  have habs : (total.natAbs : Int) = total := Int.natAbs_of_nonneg (by omega)
  unfold tooLong
  rw [decide_eq_true_iff, not_lt]
  constructor
  · intro hlong
    have hcast : ((10 ^ PyStr.maxIntDigits : Nat) : Int) ≤ total.natAbs := Int.ofNat_le.mpr hlong
    rw [habs, Nat.cast_pow] at hcast
    exact hcast
  · intro hlong
    apply Int.ofNat_le.mp
    rw [habs, Nat.cast_pow]
    exact hlong

/-- What the bound makes of a size that is told. -/
theorem boundDownload_told {ref : String} {found : Option Int} {w w' : World δ}
    (h : manifestTotalSize o py ref w = (.ok found, w')) :
    boundDownload o py ref w = match found with
      | none => (.ok (), w')
      | some declared =>
        if REGISTRY_MAX_MANIFEST_BYTES < declared then
          if tooLong declared then (.error (.raised intUnwritable), w')
          else (.error (.stage ⟨.imageTooLarge, some ("manifest declares " ++ toString declared ++
            " bytes, over the " ++ toString REGISTRY_MAX_MANIFEST_BYTES ++ "-byte pull cap")⟩), w')
        else (.ok (), w') := by
  unfold boundDownload
  rw [Prog.bind_ok h]
  cases found with
  | none => rfl
  | some declared =>
    dsimp only
    split
    · split
      · rfl
      · rfl
    · rfl

/-- The pull of a submittable reference ends as it is meant to exactly when the size is settled. -/
theorem download_bound_iff {ref : String} (hsafe : isSafeImageRef ref = true) (w : World δ) :
    BoundedPull o py ref w ↔ SizeSettled o py ref w.outside := by
  have hpull : pullImage o py ref = boundDownload o py ref >>= fun _ => fetchPinned o ref :=
    pullImage_eq hsafe
  unfold SizeSettled
  rcases htold : manifestTotalSize o py ref w with ⟨e | found, w'⟩
  · have hbound : boundDownload o py ref w = (.error e, w') := by
      unfold boundDownload
      exact Prog.bind_error htold
    have hends : pullImage o py ref w = (.error e, w') := by
      rw [hpull]
      exact Prog.bind_error hbound
    have hdetermined : Determined (manifestTotalSize o py ref w).1 ↔
        SizeReads o py ref w.outside := determined_manifestTotalSize ref w
    rw [htold] at hdetermined
    constructor
    · intro h
      have hdown : Determined (.error e : Except Halt (Option Int)) := by
        cases h with
        | refused total detail declared exceeds ends =>
          have hspec : Prog.Spec (fun _ : World δ => True) (manifestTotalSize o py ref)
              (fun _ _ => True) (fun e _ => NotTooLarge e) := spec_manifestTotalSize ref
          have hraised := hspec w trivial
          rw [htold] at hraised
          rw [hends] at ends
          exact absurd (Except.error.inj ends) (hraised detail)
        | proceeds w'' within bounded ends =>
          rw [hbound] at bounded
          cases (Prod.mk.inj bounded).1
        | down detail bounded ends =>
          rw [hends] at ends
          intro e' he'
          cases he'
          cases ends
          exact ⟨detail, rfl⟩
      refine ⟨hdetermined.mp hdown, ?_⟩
      intro total htotal
      obtain ⟨w'', htold'⟩ := told_of_declaredSize (hdetermined.mp hdown) htotal
      rw [htold] at htold'
      cases (Prod.mk.inj htold').1
    · intro h
      obtain ⟨detail, hdetail⟩ := hdetermined.mpr h.1 e rfl
      rw [hdetail] at hbound hends
      exact .down detail (by rw [hbound]) (by rw [hends])
  · have hbound := boundDownload_told htold
    have hdetermined : Determined (manifestTotalSize o py ref w).1 ↔
        SizeReads o py ref w.outside := determined_manifestTotalSize ref w
    rw [htold] at hdetermined
    have hreads := hdetermined.mp (determined_ok found)
    cases found with
    | none =>
      -- Nothing is declared, and the pull goes on.
      have hnone : ∀ total, ¬ DeclaredSize o py ref w.outside total := by
        intro total htotal
        obtain ⟨w'', htold'⟩ := told_of_declaredSize hreads htotal
        rw [htold] at htold'
        cases (Prod.mk.inj htold').1
      refine iff_of_true ?_ ⟨hreads, fun total htotal => absurd htotal (hnone total)⟩
      refine .proceeds w' (fun total htotal => absurd htotal (hnone total)) hbound ?_
      rw [hpull, Prog.bind_ok hbound]
    | some declared =>
      have hdeclared := declaredSize_of_told htold
      by_cases hover : REGISTRY_MAX_MANIFEST_BYTES < declared
      · dsimp only at hbound
        rw [if_pos hover] at hbound
        constructor
        · intro h
          refine ⟨hreads, ?_⟩
          intro total htotal
          rw [declaredSize_unique hreads htold htotal]
          by_contra hlong
          rw [if_pos ((tooLong_iff hover).mpr hlong)] at hbound
          have hends : pullImage o py ref w = (.error (.raised intUnwritable), w') := by
            rw [hpull]
            exact Prog.bind_error hbound
          cases h with
          | refused total detail declared exceeds ends =>
            rw [hends] at ends
            cases ends
          | proceeds w'' within bounded ends =>
            rw [hbound] at bounded
            cases (Prod.mk.inj bounded).1
          | down detail bounded ends =>
            rw [hends] at ends
            cases ends
        · intro h
          rw [if_neg fun hlong => (tooLong_iff hover).mp hlong (h.2 declared hdeclared)] at hbound
          have hends := congrArg Prod.fst ((congrFun hpull w).trans (Prog.bind_error hbound))
          exact .refused declared _ hdeclared hover hends
      · dsimp only at hbound
        rw [if_neg hover] at hbound
        have hwithin : ∀ total, DeclaredSize o py ref w.outside total →
            total ≤ REGISTRY_MAX_MANIFEST_BYTES := by
          intro total htotal
          rw [declaredSize_unique hreads htold htotal]
          exact not_lt.mp hover
        refine iff_of_true ?_ ⟨hreads, fun total htotal => cap_writable (hwithin total htotal)⟩
        refine .proceeds w' hwithin hbound ?_
        rw [hpull, Prog.bind_ok hbound]

/-- A registry whose manifests all read `answer`. -/
def servesManifests (answer : Outcome) : Outside Unit where
  docker _ args := (if args.head? = some "manifest" then answer else .ok ⟨0, "", ""⟩, ())
  http _ _ := (.error ⟨.osError, ""⟩, ())

def firstWorld : World Unit where
  outside := ()

/-- With no manifest to read, the pull goes on. -/
theorem no_manifest_pulls :
    BoundedPull (servesManifests (.ok ⟨1, "", "no such manifest"⟩)) cpython "org/agent:1"
      firstWorld := by
  refine (download_bound_iff (by decide +kernel) firstWorld).mpr ⟨?_, ?_⟩
  · exact .inr ⟨_, rfl, fun hcode => absurd hcode (by decide)⟩
  · intro total htotal
    obtain ⟨data, ⟨result, hanswer, hcode, _⟩, _⟩ := htotal
    cases hanswer
    exact absurd hcode (by decide)

/-- A bound that is neither passed nor refused, with Docker there, is a pull that ends wrongly. -/
theorem not_bounded {ref : String} {w : World δ} {e : Halt} (hsafe : isSafeImageRef ref = true)
    (h : (boundDownload o py ref w).1 = .error e)
    (hdown : ∀ detail, e ≠ .stage ⟨.dockerUnavailable, detail⟩) (hlarge : NotTooLarge e) :
    ¬ BoundedPull o py ref w := by
  have hends : (pullImage o py ref w).1 = .error e := by
    rw [pullImage_eq hsafe, Prog.bind_error (Prod.ext h rfl)]
  intro hbounded
  cases hbounded with
  | refused total detail declared exceeds ends =>
    rw [hends] at ends
    exact hlarge detail (Except.error.inj ends)
  | proceeds w' within bounded ends =>
    rw [bounded] at h
    cases h
  | down detail bounded ends =>
    rw [h] at bounded
    exact hdown detail (Except.error.inj bounded)

/-- What a program raises: the class of an exception, or the reason of a stage. -/
def haltOf {α : Type} : Except Halt α → Option (ExcClass ⊕ RejectReason)
  | .error (.raised e) => some (.inl e.cls)
  | .error (.stage failure) => some (.inr failure.reason)
  | .ok _ => none

theorem not_bounded_of_haltOf {ref : String} {w : World δ} {c : ExcClass ⊕ RejectReason}
    (hsafe : isSafeImageRef ref = true) (h : haltOf (boundDownload o py ref w).1 = some c)
    (hdown : c ≠ .inr .dockerUnavailable) (hlarge : c ≠ .inr .imageTooLarge) :
    ¬ BoundedPull o py ref w := by
  cases hbound : (boundDownload o py ref w).1 with
  | ok a =>
    rw [hbound] at h
    cases h
  | error e =>
    rw [hbound] at h
    refine not_bounded hsafe hbound ?_ ?_
    · intro detail he
      rw [he] at h
      exact hdown (Option.some.inj h).symm
    · intro detail he
      rw [he] at h
      exact hlarge (Option.some.inj h).symm

def nullSize : Outcome := .ok ⟨0, "\x7b\"layers\":[\x7b\"size\":null\x7d]\x7d", ""⟩

/-- A layer whose size is null is a `TypeError`, and a read that times out a rejection. -/
theorem null_size_raises :
    ¬ BoundedPull (servesManifests nullSize) cpython "org/agent:1" firstWorld ∧
      haltOf (pullImage (servesManifests nullSize) cpython "org/agent:1" firstWorld).1 =
        some (.inl .typeError) ∧
      ¬ BoundedPull (servesManifests (.error ⟨.timeoutExpired, ""⟩)) cpython "org/agent:1"
        firstWorld ∧
      haltOf (pullImage (servesManifests (.error ⟨.timeoutExpired, ""⟩)) cpython "org/agent:1"
        firstWorld).1 = some (.inr .pullFailed) := by
  have hsafe : isSafeImageRef "org/agent:1" = true := by decide +kernel
  refine ⟨?_, by decide +kernel, ?_, by decide +kernel⟩
  · exact not_bounded_of_haltOf (c := .inl .typeError) hsafe (by decide +kernel) (by decide)
      (by decide)
  · exact not_bounded_of_haltOf (c := .inr .pullFailed) hsafe (by decide +kernel) (by decide)
      (by decide)

end TaoSubnet
