import TerseMarkup.Proofs.Assignment.Origin
import TerseMarkup.Proofs.Name.Listing
import TerseMarkup.Proofs.Text.Words

/-! Codes of words, and of several words taken as one name.

A code is spelled with the characters of its name and with small letters, so the code of a word is a
word (`Assigned.isWord`). Several words may be one name as well. Such a name takes its code in one
place, so it gets what its words get one by one only if that place is within a word and all other
words stay as they are (`Assigned.eq_spaced_iff`). -/
namespace TerseMarkup

theorem Codec.isWord_encode (salt : Text) (n : Nat) : ((ofSalt salt).encode n).IsWord where
  ne_nil := encode_ne_nil _ n
  solid a ha := by
    have hletters : letters.toList.all (fun a => !Text.isSpace a) = true := by decide
    have hmem : a ∈ letters.toList := (shuffle_perm salt.bytes letters).mem_iff.mp (mem_encode ha)
    simpa using List.all_eq_true.mp hletters a hmem

theorem Text.isWord_of_infix {part name : Text} (h : part <:+: name) (hne : part ≠ [])
    (hname : name.IsWord) : part.IsWord :=
  ⟨hne, fun c hc => hname.solid c (h.subset hc)⟩

namespace Loan

/-- What a name is lent is the name with its lender exchanged. -/
theorem replaceFirst?_lender {e : Entries} {name : Text} {l : Loan} (h : e.lender? name = some l) :
    Text.replaceFirst? l.lender l.code name = some l.text := by
  obtain ⟨_, ⟨lender, code⟩, _, -, hentry, -⟩ := List.findSome?_eq_some_iff.mp h
  rw [of?] at hentry
  split at hentry
  · cases hentry
  · obtain ⟨⟨before, after⟩, hcut, rfl⟩ := Option.map_eq_some_iff.mp hentry
    rw [Text.replaceFirst?, hcut]
    rfl

end Loan

/-- A part of a name in which the name's lender occurs is lent by the same entry. -/
theorem Entries.lender?_part {e : Entries} {name part : Text} {l : Loan}
    (h : e.lender? name = some l) (hpart : part <:+: name) (hlender : l.lender <:+: part) :
    ∃ l', e.lender? part = some l' ∧ l'.lender = l.lender ∧ l'.code = l.code := by
  obtain ⟨earlier, entry, later, rfl, hentry, hearlier⟩ := List.findSome?_eq_some_iff.mp h
  obtain ⟨rfl, hne, -⟩ := Loan.of?_eq_some hentry
  have hnone : lender? earlier part = none :=
    lender?_eq_none_of_infix hpart (List.findSome?_eq_none_iff.mpr hearlier)
  cases hown : Loan.of? part (l.lender, l.code) with
  | none => exact absurd hlender (((Loan.of?_eq_none_iff part _).mp hown).resolve_left hne)
  | some l' =>
    obtain ⟨hsame, -, -⟩ := Loan.of?_eq_some hown
    obtain ⟨hlender', hcode'⟩ := Prod.mk.inj hsame
    refine ⟨l', ?_, hlender'.symm, hcode'.symm⟩
    rw [lender?_append, hnone, Option.none_or, lender?, List.findSome?_cons, hown]

namespace Table

/-- Whether the code of a name of several words is what its words have as codes: the name that lends
to it occurs within a word, and every word but the first such has itself as its code. -/
def KeepsWords (t : Table) (k : Kind) (name : Text) : Prop :=
  ∃ l before word after, t.lender? k name = some l ∧ Text.words name = before ++ word :: after ∧
    l.lender <:+: word ∧ (∀ u ∈ before, ¬ l.lender <:+: u) ∧
    ∀ u ∈ before ++ after, t.find? k u = some u

end Table

namespace Shortener

variable {s : Shortener} {t : Table} {k : Kind}

/-- Words have words as codes, and so does whatever a word is lent. -/
theorem Assigned.isWord_code (h : s.Assigned t) (hcodec : ∀ n, (s.codec.encode n).IsWord)
    {name : Text} {l : Loan} (hl : t.lender? k name = some l) : l.code.IsWord := by
  obtain ⟨n, -, hcode, -⟩ := h.minted k l.lender l.code (Table.root_of_lender? hl)
  rw [hcode]
  exact hcodec n

/-- **The code of a name without spaces is a word.** -/
theorem Assigned.isWord (h : s.Assigned t) (hcodec : ∀ n, (s.codec.encode n).IsWord)
    {name code : Text} (hname : ∀ c ∈ name, Text.isSpace c = false)
    (hfind : t.find? k name = some code) : code.IsWord := by
  obtain ⟨l, hl, rfl⟩ := h.lent k name code hfind
  have hcode := h.isWord_code hcodec hl
  obtain ⟨-, -, hparts⟩ := Entries.lender?_eq_some hl
  have hsolid : ∀ c ∈ l.before ++ l.lender ++ l.after, Text.isSpace c = false := by
    rw [← hparts]
    exact hname
  refine ⟨List.append_ne_nil_of_left_ne_nil
    (List.append_ne_nil_of_right_ne_nil _ hcode.ne_nil) _, fun c hc => ?_⟩
  rw [Loan.text, List.mem_append, List.mem_append] at hc
  rcases hc with (hbefore | hlent) | hafter
  · exact hsolid c (by simp [hbefore])
  · exact hcode.solid c hlent
  · exact hsolid c (by simp [hafter])

section Several

variable {ws : List Text} {code : Text} {codeOf : Text → Text}

/-- Where the lender is a word or part of one, the name has the code of the first word that the
lender is in, between the other words as they are. -/
theorem Assigned.text_eq_spaced (h : s.Assigned t) {before after : List Text} {word wordCode : Text}
    {l : Loan} (hws : ∀ w ∈ before ++ word :: after, w.IsWord)
    (hl : t.lender? k (Text.spaced (before ++ word :: after)) = some l)
    (hword : l.lender <:+: word) (hbefore : ∀ u ∈ before, ¬ l.lender <:+: u)
    (hfind : t.find? k word = some wordCode) :
    l.text = Text.spaced (before ++ wordCode :: after) := by
  have hmem : word ∈ before ++ word :: after := by simp
  have hlender := Text.isWord_of_infix hword (Entries.lender?_eq_some hl).2.1 (hws word hmem)
  have hpart : word <:+: Text.spaced (before ++ word :: after) :=
    (Text.infix_spaced_iff (hws word hmem)).mpr ⟨word, hmem, List.infix_rfl⟩
  obtain ⟨l', hl', hlender', hcode'⟩ := Entries.lender?_part hl hpart hword
  have hlent : l'.text = wordCode :=
    Option.some.inj ((h.find?_of_lender? (Table.mem_names_of_find? hfind) hl').symm.trans hfind)
  have hsplice := Text.replaceFirst?_spaced hlender hbefore hword after l.code
  rw [Loan.replaceFirst?_lender hl, ← hlender', ← hcode', Loan.replaceFirst?_lender hl', hlent]
    at hsplice
  exact Option.some.inj hsplice

/-- A lender that is in no word of the name has a space in it. -/
theorem space_mem_lender (hws : ∀ w ∈ ws, w.IsWord) {l : Loan}
    (hl : t.lender? k (Text.spaced ws) = some l) (hnone : ∀ w ∈ ws, ¬ l.lender <:+: w) :
    ' ' ∈ l.lender := by
  obtain ⟨-, hne, hname⟩ := Entries.lender?_eq_some hl
  have hwithin : l.lender <:+: Text.spaced ws := ⟨l.before, l.after, hname.symm⟩
  by_contra hspace
  have hword : l.lender.IsWord := by
    refine ⟨hne, fun c hc => ?_⟩
    rcases Text.mem_spaced (hwithin.subset hc) with rfl | ⟨w, hw, hcw⟩
    · exact absurd hc hspace
    · exact (hws w hw).solid c hcw
  obtain ⟨w, hw, hocc⟩ := (Text.infix_spaced_iff hword).mp hwithin
  exact hnone w hw hocc

/-- Such a lender gives way to a code without spaces, and then there are fewer than between the
words. -/
theorem Assigned.text_ne_spaced (h : s.Assigned t) (hcodec : ∀ n, (s.codec.encode n).IsWord)
    (hws : ∀ w ∈ ws, w.IsWord) {codes : List Text} (hcodes : ∀ c ∈ codes, c.IsWord)
    (hlength : codes.length = ws.length) {l : Loan} (hl : t.lender? k (Text.spaced ws) = some l)
    (hspace : ' ' ∈ l.lender) : l.text ≠ Text.spaced codes := by
  intro heq
  obtain ⟨-, -, hname⟩ := Entries.lender?_eq_some hl
  have hold := congrArg (List.count ' ') hname
  have hnew := congrArg (List.count ' ') heq
  have hcode := (h.isWord_code hcodec hl).count_space
  have hpos := List.count_pos_iff.mpr hspace
  rw [Text.count_spaced hws] at hold
  rw [Text.count_spaced hcodes, Loan.text] at hnew
  simp only [List.count_append] at hold hnew
  omega

theorem eq_map_iff (us : List Text) : us = us.map codeOf ↔ ∀ u ∈ us, codeOf u = u := by
  calc us = us.map codeOf ↔ us.map codeOf = us.map id := by rw [List.map_id, eq_comm]
    _ ↔ ∀ u ∈ us, codeOf u = u := List.map_inj_left

/-- **Several words taken as one name have the codes of the words as their code** exactly if the
name takes its code within a word and all other words stay as they are. -/
theorem Assigned.eq_spaced_iff (h : s.Assigned t) (hcodec : ∀ n, (s.codec.encode n).IsWord)
    (hws : ∀ w ∈ ws, w.IsWord) (hcodes : ∀ w ∈ ws, t.find? k w = some (codeOf w))
    (hfind : t.find? k (Text.spaced ws) = some code) :
    code = Text.spaced (ws.map codeOf) ↔ t.KeepsWords k (Text.spaced ws) := by
  obtain ⟨l, hl, rfl⟩ := h.lent k _ code hfind
  have hwords : ∀ c ∈ ws.map codeOf, c.IsWord := by
    rw [List.forall_mem_map]
    exact fun w hw => h.isWord hcodec (hws w hw).solid (hcodes w hw)
  -- With the lender in a word, it is up to the other words.
  have hothers {before after : List Text} {word : Text} (hsplit : ws = before ++ word :: after)
      (hword : l.lender <:+: word) (hbefore : ∀ u ∈ before, ¬ l.lender <:+: u) :
      l.text = Text.spaced (ws.map codeOf) ↔ ∀ u ∈ before ++ after, t.find? k u = some u := by
    subst hsplit
    have hkept (u : Text) (hu : u ∈ before ++ after) : t.find? k u = some u ↔ codeOf u = u := by
      rw [hcodes u (List.mem_append.mpr ((List.mem_append.mp hu).imp id (List.mem_cons_of_mem _))),
        Option.some_inj]
    have hnew : ∀ w ∈ before ++ codeOf word :: after, w.IsWord := by
      simp only [List.forall_mem_append, List.forall_mem_cons, List.map_append, List.map_cons]
        at hws hwords ⊢
      exact ⟨hws.1, hwords.2.1, hws.2.2⟩
    rw [h.text_eq_spaced hws hl hword hbefore (hcodes word (by simp)), Text.spaced_inj hnew hwords,
      forall₂_congr hkept, List.map_append, List.map_cons, List.forall_mem_append,
      ← eq_map_iff, ← eq_map_iff]
    constructor
    · intro heq
      obtain ⟨hfront, hback⟩ := List.append_inj heq (List.length_map _).symm
      exact ⟨hfront, (List.cons.inj hback).2⟩
    · rintro ⟨hfront, hback⟩
      rw [← hfront, ← hback]
  constructor
  · intro heq
    cases hfirst : ws.find? (Text.contains l.lender) with
    | none =>
      have hnone : ∀ w ∈ ws, ¬ l.lender <:+: w := by
        simpa [Text.contains_iff] using List.find?_eq_none.mp hfirst
      exact absurd heq (h.text_ne_spaced hcodec hws hwords (List.length_map _) hl
        (space_mem_lender hws hl hnone))
    | some word =>
      obtain ⟨hword, before, after, hsplit, hbefore⟩ := List.find?_eq_some_iff_append.mp hfirst
      rw [Text.contains_iff] at hword
      have hnone : ∀ u ∈ before, ¬ l.lender <:+: u := by
        simpa [← Text.contains_iff] using hbefore
      have hsplit' : Text.words (Text.spaced ws) = before ++ word :: after := by
        rw [Text.words_spaced hws, hsplit]
      exact ⟨l, before, word, after, hl, hsplit', hword, hnone,
        (hothers hsplit hword hnone).mp heq⟩
  · rintro ⟨l', before, word, after, hl', hsplit, hword, hbefore, hkept⟩
    obtain rfl := Option.some.inj (hl.symm.trans hl')
    rw [Text.words_spaced hws] at hsplit
    exact (hothers hsplit hword hbefore).mpr hkept

end Several

end Shortener
end TerseMarkup
