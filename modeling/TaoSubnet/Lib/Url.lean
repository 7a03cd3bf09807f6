import TaoSubnet.Lib.PyStr

/-!
# URLs, as `urllib.request` takes them apart

`Request(url)` trims the text, drops what follows the last `#`, and reads a scheme and an authority
off its beginning. The authority ends at the first of three delimiters; nothing else ends it.
-/

namespace Py.Url

/-- `/`, `#` and `?`. -/
def isDelimiter (c : Nat) : Bool := c == 47 || c == 35 || c == 63

/-- `unwrap`: the blanks around a URL go, and so do a pair of angle brackets and a `URL:`. -/
def unwrap (url : PyStr) : PyStr :=
  let url := PyStr.strip url
  let url :=
    if url.head? = some 60 ∧ url.getLast? = some 62 then PyStr.strip (url.drop 1).dropLast else url
  if url.take 4 = [85, 82, 76, 58] then PyStr.strip (url.drop 4) else url

/-- `_splittag`, without the tag. -/
def splitTag (url : PyStr) : PyStr :=
  if url.contains 35 then ((url.reverse.dropWhile (· != 35)).drop 1).reverse else url

/-- `_splittype`. -/
def splitType (url : PyStr) : Option (PyStr × PyStr) :=
  let scheme := url.takeWhile fun c => c != 47 && c != 58
  match scheme, url.drop scheme.length with
  | _ :: _, 58 :: rest => some (scheme, rest)
  | _, _ => none

/-- `_splithost`, without the path. -/
def splitHost : PyStr → Option PyStr
  | 47 :: 47 :: rest => some (rest.takeWhile fun c => !isDelimiter c)
  | _ => none

/-- The authority of `Request(url)`. -/
def authorityOf (url : PyStr) : Option PyStr :=
  (splitType (splitTag (unwrap url))).bind fun parts => splitHost parts.2

/-- `http://`. -/
def httpScheme : PyStr := [104, 116, 116, 112, 58, 47, 47]

/-- `s.rstrip()`. -/
def rstrip (s : PyStr) : PyStr := s.rdropWhile isSpaceCode

/-! ## The parts of a text that begins as an HTTP URL does -/

variable {authority suffix : PyStr}

theorem rdropWhile_append {p : Nat → Bool} {s : PyStr} (t : PyStr) (hne : s ≠ [])
    (h : p (s.getLast hne) = false) : (s ++ t).rdropWhile p = s ++ t.rdropWhile p := by
  unfold List.rdropWhile
  rw [List.reverse_append, List.dropWhile_append]
  split
  · rename_i hempty
    have hlast : s.reverse.dropWhile p = s.reverse := by
      apply List.dropWhile_eq_self_iff.mpr
      intro hlength
      rw [← List.head_eq_getElem, List.head_reverse]
      · simp [h]
      · simpa using hne
    rw [hlast, List.isEmpty_iff.mp hempty, List.reverse_reverse, List.reverse_nil, List.append_nil]
  · rw [List.reverse_append, List.reverse_reverse]

theorem strip_httpScheme (hne : authority ≠ []) (h : isSpaceCode (authority.getLast hne) = false) :
    PyStr.strip (httpScheme ++ authority ++ suffix) = httpScheme ++ authority ++ rstrip suffix := by
  rw [PyStr.strip_eq_rdropWhile]
  have hfront : List.dropWhile isSpaceCode (httpScheme ++ authority ++ suffix) =
      httpScheme ++ authority ++ suffix := rfl
  have hlast : httpScheme ++ authority ≠ [] := List.append_ne_nil_of_right_ne_nil _ hne
  rw [hfront, rdropWhile_append suffix hlast]
  · rfl
  · rw [List.getLast_append_of_ne_nil hlast hne]
    exact h

/-- An HTTP URL is not wrapped. -/
theorem unwrap_httpScheme (hne : authority ≠ []) (h : isSpaceCode (authority.getLast hne) = false) :
    unwrap (httpScheme ++ authority ++ suffix) = httpScheme ++ authority ++ rstrip suffix := by
  unfold unwrap
  rw [strip_httpScheme hne h]
  have hopen : ¬ ((httpScheme ++ authority ++ rstrip suffix).head? = some 60 ∧
      (httpScheme ++ authority ++ rstrip suffix).getLast? = some 62) := by
    intro hwrapped
    cases hwrapped.1
  have hprefix : ¬ (httpScheme ++ authority ++ rstrip suffix).take 4 = [85, 82, 76, 58] := by
    intro hurl
    have hfirst : (104 : Nat) = 85 := (List.cons.inj hurl).1
    cases hfirst
  dsimp only
  rw [if_neg hopen, if_neg hprefix]

/-- The tag ends what comes before a tag in any case, so dropping it ends nothing early. -/
theorem splitTag_append {s : PyStr} (hs : 35 ∉ s) (t : PyStr) :
    ∃ t', splitTag (s ++ t) = s ++ t' ∧
      t'.takeWhile (fun c => !isDelimiter c) = t.takeWhile fun c => !isDelimiter c := by
  unfold splitTag
  by_cases ht : 35 ∈ t
  · have hcontains : (s ++ t).contains 35 = true := by
      rw [List.contains_iff_mem]
      exact List.mem_append_right s ht
    rw [if_pos hcontains, List.reverse_append, List.dropWhile_append]
    have hsome : (t.reverse.dropWhile (· != 35)).isEmpty = false := by
      rw [Bool.eq_false_iff]
      intro hempty
      have hall := List.dropWhile_eq_nil_iff.mp (List.isEmpty_iff.mp hempty)
      have := hall 35 (List.mem_reverse.mpr ht)
      simp at this
    rw [hsome]
    simp only [Bool.false_eq_true, if_false]
    -- What is dropped of `t` is its last `#` and what follows it.
    cases hrest : t.reverse.dropWhile (· != 35) with
    | nil =>
      rw [hrest] at hsome
      cases hsome
    | cons c kept =>
      have hc : c = 35 := by
        have hhead := List.head?_dropWhile_not (fun c => c != 35) t.reverse
        rw [hrest] at hhead
        simpa using hhead
      refine ⟨kept.reverse, ?_, ?_⟩
      · simp
      · have hsplit : ∃ tag, t = kept.reverse ++ 35 :: tag := by
          refine ⟨(t.reverse.takeWhile (· != 35)).reverse, ?_⟩
          have hwhole : (t.reverse.takeWhile (· != 35) ++ t.reverse.dropWhile (· != 35)).reverse =
              t.reverse.reverse := congrArg List.reverse List.takeWhile_append_dropWhile
          rw [hrest, hc, List.reverse_append, List.reverse_cons, List.append_assoc,
            List.reverse_reverse] at hwhole
          exact hwhole.symm
        obtain ⟨tag, htag⟩ := hsplit
        rw [htag, List.takeWhile_append]
        split
        · rename_i hlength
          have hall : kept.reverse.takeWhile (fun c => !isDelimiter c) = kept.reverse :=
            (List.takeWhile_prefix _).eq_of_length hlength
          have hstop : List.takeWhile (fun c => !isDelimiter c) (35 :: tag) = [] := rfl
          rw [hall, hstop, List.append_nil]
        · rfl
  · have hcontains : ¬ (s ++ t).contains 35 = true := by
      rw [List.contains_iff_mem, List.mem_append, not_or]
      exact ⟨hs, ht⟩
    rw [if_neg hcontains]
    exact ⟨t, rfl, rfl⟩

/-- The authority of an HTTP URL goes on over whatever follows it, blanks at the end apart, up to a
    delimiter. -/
theorem authorityOf_httpScheme (hne : authority ≠ [])
    (htext : ∀ c ∈ authority, isDelimiter c = false ∧ isSpaceCode c = false) :
    authorityOf (httpScheme ++ authority ++ suffix) =
      some (authority ++ (rstrip suffix).takeWhile fun c => !isDelimiter c) := by
  have hlast : isSpaceCode (authority.getLast hne) = false := (htext _ (List.getLast_mem hne)).2
  have htag : 35 ∉ httpScheme ++ authority := by
    rw [List.mem_append, not_or]
    refine ⟨by decide, ?_⟩
    intro hmem
    have := (htext 35 hmem).1
    simp [isDelimiter] at this
  obtain ⟨rest, hrest, hsame⟩ := splitTag_append htag (rstrip suffix)
  unfold authorityOf
  rw [unwrap_httpScheme hne hlast, hrest]
  show some ((authority ++ rest).takeWhile fun c => !isDelimiter c) = _
  have hall : ∀ c ∈ authority, (!isDelimiter c) = true := by
    intro c hc
    rw [(htext c hc).1]
    rfl
  rw [List.takeWhile_append_of_pos hall, hsame]

end Py.Url
