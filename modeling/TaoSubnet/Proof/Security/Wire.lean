import TaoSubnet.Lib.Query
import TaoSubnet.Security.Replay

/-!
# What the validator writes, the target reads

A replay writes the fields of a step into a URL with `urlencode`; the target takes the path and the query
out of its request line, and the fields out of the query. Every field with a value arrives as it was.
-/

namespace TaoSubnet

open Py

/-! ## Bytes and their escapes -/

theorem hexValue_digit {d : Nat} (h : d < 16) :
    Url.hexValue (if d < 10 then 48 + d else 55 + d) = some d := by
  revert d
  decide

theorem plain_of_unreserved {b : Nat} (h : isUnreserved b = true) : Url.Plain b := by
  unfold isUnreserved at h
  simp only [Bool.or_eq_true, Bool.and_eq_true, decide_eq_true_eq, beq_iff_eq] at h
  unfold Url.Plain
  omega

/-- A byte is written so that it can be read. -/
theorem escaped_percentByte {b : Nat} (h : b < 256) : Url.Escaped b (percentByte b) := by
  unfold percentByte
  dsimp only
  by_cases hplain : isUnreserved b = true
  · rw [if_pos hplain]
    exact .plain (plain_of_unreserved hplain)
  by_cases hspace : b = 32
  · rw [if_neg hplain, if_pos hspace, hspace]
    exact .space
  · have hbyte : 16 * (b / 16) + b % 16 = b := Nat.div_add_mod b 16
    have hescaped := Url.Escaped.percent (hexValue_digit (d := b / 16) (by omega))
      (hexValue_digit (d := b % 16) (by omega))
    rw [hbyte] at hescaped
    rw [if_neg hplain, if_neg hspace]
    exact hescaped

theorem escapedText_bytes {bytes : List Nat} (h : ∀ b ∈ bytes, b < 256) :
    Url.EscapedText bytes (bytes.flatMap percentByte) := by
  induction bytes with
  | nil => exact .nil
  | cons b rest ih =>
    obtain ⟨hb, hrest⟩ := List.forall_mem_cons.mp h
    exact .cons (escaped_percentByte hb) (ih hrest)

theorem utf8Bytes_range {n : Nat} {bytes : List Nat} (hn : n < 0x110000)
    (h : utf8Bytes n = some bytes) : ∀ b ∈ bytes, b < 256 := by
  unfold utf8Bytes at h
  split_ifs at h with h1 h2 h3 h4
  all_goals
    obtain rfl := Option.some.inj h
    simp only [List.forall_mem_cons, List.not_mem_nil, false_implies, implies_true, and_true]
    omega

theorem mapM_utf8Bytes_range {s : PyStr} {bytes : List (List Nat)} (hs : ∀ n ∈ s, n < 0x110000)
    (h : s.mapM utf8Bytes = some bytes) : ∀ b ∈ bytes.flatten, b < 256 := by
  induction s generalizing bytes with
  | nil =>
    obtain rfl := Option.some.inj h
    exact List.forall_mem_nil _
  | cons n s ih =>
    obtain ⟨first, rest, hfirst, hrest, rfl⟩ := mapM_utf8Bytes_cons h
    obtain ⟨hn, hs⟩ := List.forall_mem_cons.mp hs
    rw [List.flatten_cons]
    exact List.forall_mem_append.mpr ⟨utf8Bytes_range hn hfirst, ih hs hrest⟩

/-- What `quote_plus` writes stands for the text. -/
theorem encodes_quotePlus {s text : PyStr} (hs : ∀ n ∈ s, n < 0x110000)
    (h : quotePlus s = .ok text) : Url.Encodes s text := by
  unfold quotePlus at h
  cases hbytes : s.mapM utf8Bytes with
  | none =>
    rw [hbytes] at h
    cases h
  | some bytes =>
    rw [hbytes] at h
    obtain rfl := Except.ok.inj h
    exact ⟨hs, bytes, hbytes, escapedText_bytes (mapM_utf8Bytes_range hs hbytes)⟩

/-! ## Fields -/

/-- A text of code points. -/
def IsText (s : PyStr) : Prop := ∀ n ∈ s, n < 0x110000

theorem urlencode_fields {fields : List (PyStr × PyStr)} {query : PyStr}
    (hfields : ∀ p ∈ fields, IsText p.1 ∧ IsText p.2) (h : urlencode fields = .ok query) :
    ∃ texts, List.Forall₂ Url.FieldText fields texts ∧ query = [38].intercalate texts := by
  obtain ⟨texts, htexts, hjoined⟩ := except_bind_ok h
  refine ⟨texts, ?_, (Except.ok.inj hjoined).symm⟩
  clear h hjoined
  induction fields generalizing texts with
  | nil =>
    obtain rfl := Except.ok.inj htexts
    exact .nil
  | cons p rest ih =>
    obtain ⟨⟨hname, hvalue⟩, hrest⟩ := List.forall_mem_cons.mp hfields
    rw [List.mapM_cons] at htexts
    obtain ⟨first, hfirst, htexts⟩ := except_bind_ok htexts
    obtain ⟨others, hothers, htexts⟩ := except_bind_ok htexts
    obtain rfl := Except.ok.inj htexts
    obtain ⟨name, hquoted, hfirst⟩ := except_bind_ok hfirst
    obtain ⟨value, hquoted', hfirst⟩ := except_bind_ok hfirst
    obtain rfl := Except.ok.inj hfirst
    refine .cons ⟨name, value, encodes_quotePlus hname hquoted, encodes_quotePlus hvalue hquoted', ?_⟩
      (ih hrest _ hothers)
    rw [List.append_assoc]
    rfl

theorem query_visible {fields : List (PyStr × PyStr)} {texts : List PyStr}
    (h : List.Forall₂ Url.FieldText fields texts) :
    ∀ c ∈ [38].intercalate texts, 32 < c ∧ c < 127 ∧ c ≠ 35 := by
  have htext : ∀ text ∈ texts, ∀ c ∈ text, 32 < c ∧ c < 127 ∧ c ≠ 35 := by
    induction h with
    | nil => exact List.forall_mem_nil _
    | cons hfirst _ ih =>
      refine List.forall_mem_cons.mpr ⟨?_, ih⟩
      obtain ⟨name, value, hname, hvalue, rfl⟩ := hfirst
      refine List.forall_mem_append.mpr ⟨?_, List.forall_mem_cons.mpr ⟨by decide, ?_⟩⟩
      · intro c hc
        have hfield := hname.inField c hc
        exact ⟨hfield.1, hfield.2.1, hfield.2.2.1⟩
      · intro c hc
        have hfield := hvalue.inField c hc
        exact ⟨hfield.1, hfield.2.1, hfield.2.2.1⟩
  clear h
  intro c hc
  induction texts with
  | nil => cases hc
  | cons text rest ih =>
    obtain ⟨hfirst, hrest⟩ := List.forall_mem_cons.mp htext
    cases rest with
    | nil =>
      rw [List.intercalate_singleton] at hc
      exact hfirst c hc
    | cons next rest =>
      rw [List.intercalate_cons_cons] at hc
      rcases List.mem_append.mp hc with hc | hc
      · rcases List.mem_append.mp hc with hc | hc
        · exact hfirst c hc
        · rw [List.mem_singleton.mp hc]
          decide
      · exact ih hrest hc

/-! ## One request -/

/-- The values of a field, in their order: those that are not empty. -/
def valuesOf (name : PyStr) (fields : List (PyStr × PyStr)) : List PyStr :=
  ((fields.filter fun p => p.2 ≠ []).filter fun p => p.1 = name).map Prod.snd

/-- A request for a path and some fields arrives as that path and those fields: the target of the request
    line is what follows the authority, and taken apart it gives back what was written. -/
theorem written_is_read (checkNetloc : PyStr → Except Exc Unit) {authority rest : PyStr}
    {fields : List (PyStr × PyStr)} {query : PyStr} (hne : authority ≠ [])
    (hauthority : ∀ c ∈ authority, Url.isDelimiter c = false ∧ isSpaceCode c = false)
    (hpath : ∀ c ∈ 47 :: rest, Url.InPath c) (hrest : rest.head? ≠ some 47)
    (hfields : ∀ p ∈ fields, IsText p.1 ∧ IsText p.2) (h : urlencode fields = .ok query) :
    ∃ target, Url.selectorOf (Url.httpScheme ++ authority ++ 47 :: rest ++ [63] ++ query) = some target ∧
      Url.urlparse checkNetloc target = .ok (47 :: rest, query) ∧
      Url.parseQsl query = fields.filter (fun p => p.2 ≠ []) ∧
      ∀ name, ((Url.parseQs query).get? name).getD [] = valuesOf name fields := by
  obtain ⟨texts, htexts, rfl⟩ := urlencode_fields hfields h
  have hvisible := query_visible htexts
  have hread := Url.parseQsl_joined htexts
  refine ⟨47 :: rest ++ 63 :: [38].intercalate texts, ?_, ?_, hread, ?_⟩
  · have hurl : Url.httpScheme ++ authority ++ 47 :: rest ++ [63] ++ [38].intercalate texts =
        Url.httpScheme ++ authority ++ 47 :: (rest ++ 63 :: [38].intercalate texts) := by
      simp only [List.append_assoc, List.cons_append, List.nil_append]
    rw [hurl]
    refine Url.selectorOf_target hne hauthority ?_
    refine List.forall_mem_append.mpr ⟨?_, List.forall_mem_cons.mpr ⟨by decide, hvisible⟩⟩
    intro c hc
    have hc := hpath c (List.mem_cons_of_mem 47 hc)
    exact ⟨hc.1, hc.2.1, hc.2.2.1⟩
  · refine Url.urlparse_target checkNetloc hpath hrest ?_
    intro c hc
    exact ⟨(hvisible c hc).1, (hvisible c hc).2.2⟩
  · intro name
    rw [Url.get?_parseQs, hread]
    rfl

end TaoSubnet
