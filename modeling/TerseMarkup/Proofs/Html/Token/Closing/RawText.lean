import TerseMarkup.Proofs.Html.Token.Closing

/-! Raw text before the end tag.

The end tag of a template ends no text that is not markup, and hides nothing in a script, so the
length of such text is the same with it, or it is all there is (`SparesLength`). -/
namespace TerseMarkup.Html

namespace RawText

theorem startsName_append {name : Text} (hname : '<' ∉ name) (s r : Text) :
    startsName name (s ++ '<' :: r) = startsName name s := by
  rw [startsName, startsName, afterIgnoringCase?_append hname]
  cases Text.afterIgnoringCase? name s with
  | none => rfl
  | some r =>
    cases r with
    | nil =>
      show (Text.isSpace '<' || '<' == '/' || '<' == '>') = false
      decide
    | cons c r => rfl

/-- No end tag goes on through a `<`. -/
theorem startsEnd_append {name : Text} (hname : '<' ∉ name) (c : Char) (s r : Text) :
    startsEnd name (c :: s ++ '<' :: r) = startsEnd name (c :: s) := by
  by_cases hc : c = '<'
  · subst hc
    match s with
    | [] => rfl
    | d :: s =>
      by_cases hd : d = '/'
      · subst hd
        exact startsName_append hname s r
      · have hother (t : Text) : startsEnd name ('<' :: d :: t) = false := by
          rw [startsEnd.eq_2]
          rintro r heq
          exact hd (List.cons.inj (List.cons.inj heq).2).1
        rw [List.cons_append, List.cons_append, hother, hother]
  · have hother (t : Text) : startsEnd name (c :: t) = false := by
      rw [startsEnd.eq_2]
      rintro r heq
      exact hc (List.cons.inj heq).1
    rw [List.cons_append, hother, hother]

theorem startsEnd_closing {name : Text} (hname : '<' ∉ name) (c : Char) (s : Text) :
    startsEnd name (c :: s ++ closing) = startsEnd name (c :: s) :=
  startsEnd_append hname c s _

/-- What `length` makes of the tag, or the same length as before it. -/
def SparesLength (whole part : Nat) (s : Text) : Prop :=
  whole = s.length + closing.length ∨ whole = part ∧ part < s.length

theorem SparesLength.succ {whole part : Nat} {s : Text} (h : SparesLength whole part s) (c : Char) :
    SparesLength (whole + 1) (part + 1) (c :: s) := by
  rcases h with rfl | ⟨rfl, h⟩
  · exact .inl (Nat.succ_add _ _).symm
  · exact .inr ⟨rfl, Nat.succ_lt_succ h⟩

theorem length_closing {name : Text} (hname : '<' ∉ name)
    (htag : length name closing = closing.length) (s : Text) :
    SparesLength (length name (s ++ closing)) (length name s) s := by
  induction s with
  | nil => exact .inl (htag.trans (Nat.zero_add _).symm)
  | cons c s ih =>
    have hstart := startsEnd_closing hname c s
    rw [List.cons_append] at hstart ⊢
    rw [length, length, hstart]
    split
    · exact .inr ⟨rfl, Nat.succ_pos _⟩
    · exact ih.succ c

theorem length_of_afterIgnoringCase? {name s r : Text}
    (h : Text.afterIgnoringCase? name s = some r) : s.length = name.length + r.length := by
  obtain ⟨spelled, rfl, rfl⟩ := (Text.afterIgnoringCase?_eq_some_iff name s r).mp h
  rw [List.length_append, Text.lower, List.length_map]

/-- A name of a tag ends with a character behind it. -/
theorem length_le_of_startsName {name s : Text} (h : startsName name s = true) :
    name.length + 1 ≤ s.length := by
  rw [startsName] at h
  split at h
  next heq =>
    rw [length_of_afterIgnoringCase? heq, List.length_cons]
    omega
  · exact nomatch h

theorem length_le_of_startsEnd {name : Text} {c : Char} {s : Text}
    (h : startsEnd name (c :: s) = true) : name.length + 2 ≤ s.length := by
  rw [startsEnd.eq_def] at h
  split at h
  next heq =>
    obtain ⟨-, rfl⟩ := List.cons.inj heq
    exact Nat.succ_le_succ (length_le_of_startsName h)
  · exact nomatch h

/-- The tag hides nothing and ends no script. -/
theorem scriptLength_tag (part : ScriptPart) : scriptLength 0 part closing = closing.length := by
  cases part with
  | plain => decide
  | hidden dashes =>
    have htag : startsEnd scriptName ('<' :: '/' :: "template>".toList) = false := by decide
    have hname : ¬ ('<' = '<' ∧ startsName scriptName ('/' :: "template>".toList) = true) := by decide
    rw [closing_eq, scriptLength, htag, if_neg Bool.false_ne_true, if_neg hname]
    show scriptLength 0 (.hidden 0) ('/' :: "template>".toList) + 1 = _
    decide
  | nested dashes =>
    have htag : startsEnd scriptName ('<' :: '/' :: "template>".toList) = false := by decide
    rw [closing_eq, scriptLength, htag, if_neg Bool.false_ne_true]
    show scriptLength 0 (.nested 0) ('/' :: "template>".toList) + 1 = _
    decide

/-- No mark goes on through a `<`. -/
theorem prefix_of_append {mark s r : Text} (hmark : '<' ∉ mark) (h : mark <+: s ++ '<' :: r) :
    mark <+: s := by
  rcases Nat.le_total mark.length s.length with hle | hle
  · exact List.prefix_of_prefix_length_le h (List.prefix_append _ _) hle
  · obtain ⟨rest, rfl⟩ := List.prefix_of_prefix_length_le (List.prefix_append _ _) h hle
    rw [List.prefix_append_right_inj] at h
    cases rest with
    | nil => exact List.prefix_append_right_inj s |>.mpr (List.prefix_refl _) |>.trans (by simp)
    | cons c rest =>
      obtain ⟨rfl, -⟩ := List.cons_prefix_cons.mp h
      exact absurd (List.mem_append_right _ List.mem_cons_self) hmark

theorem isPrefixOf_append (c : Char) (s r : Text) :
    "<!--".toList.isPrefixOf (c :: s ++ '<' :: r) = "<!--".toList.isPrefixOf (c :: s) := by
  rw [Bool.eq_iff_iff, List.isPrefixOf_iff_prefix, List.isPrefixOf_iff_prefix]
  constructor
  · intro h
    obtain ⟨rfl, hrest⟩ := List.cons_prefix_cons.mp h
    exact List.cons_prefix_cons.mpr ⟨rfl, prefix_of_append (by decide) hrest⟩
  · exact fun h => h.trans (List.prefix_append _ _)

/-- Where a `<` follows, the script ends before that, or it is all there is so far; nothing in it
hangs on what follows. -/
def EndsBefore (skip : Nat) (part : ScriptPart) (s : Text) : Prop :=
  (scriptLength skip part s < s.length ∧
      ∀ r, scriptLength skip part (s ++ '<' :: r) = scriptLength skip part s) ∨
    ∃ part', ∀ r, scriptLength skip part (s ++ '<' :: r) =
      s.length + scriptLength 0 part' ('<' :: r)

theorem EndsBefore.succ {skip skip' : Nat} {part part' : ScriptPart} {c : Char} {s : Text}
    (h : EndsBefore skip part s)
    (hs : scriptLength skip' part' (c :: s) = scriptLength skip part s + 1)
    (hr : ∀ r, scriptLength skip' part' (c :: (s ++ '<' :: r)) =
      scriptLength skip part (s ++ '<' :: r) + 1) : EndsBefore skip' part' (c :: s) := by
  rcases h with ⟨hlt, heq⟩ | ⟨last, heq⟩
  · refine .inl ⟨hs ▸ Nat.succ_lt_succ hlt, fun r => ?_⟩
    rw [List.cons_append, hr, heq, hs]
  · refine .inr ⟨last, fun r => ?_⟩
    rw [List.cons_append, hr, heq, List.length_cons]
    exact (Nat.succ_add _ _).symm

theorem endsBefore (skip : Nat) (part : ScriptPart) {s : Text} (hskip : skip ≤ s.length) :
    EndsBefore skip part s := by
  have hname : '<' ∉ scriptName := by decide
  have hend (c : Char) (s r : Text) :
      startsEnd scriptName (c :: (s ++ '<' :: r)) = startsEnd scriptName (c :: s) :=
    startsEnd_append hname c s r
  have hprefix (c : Char) (s r : Text) : "<!--".toList.isPrefixOf (c :: (s ++ '<' :: r)) =
      "<!--".toList.isPrefixOf (c :: s) := isPrefixOf_append c s r
  have hstart (s r : Text) : startsName scriptName (s ++ '<' :: r) = startsName scriptName s :=
    startsName_append hname s r
  fun_induction scriptLength skip part s with
  | case1 skip part =>
    obtain rfl : skip = 0 := Nat.le_zero.mp hskip
    exact .inr ⟨part, fun r => (Nat.zero_add _).symm⟩
  | case2 skip part c r ih =>
    exact (ih (Nat.le_of_succ_le_succ hskip)).succ rfl fun r => by rw [scriptLength]
  | case3 c r h =>
    have hzero : scriptLength 0 .plain (c :: r) = 0 := by rw [scriptLength, if_pos h]
    refine .inl ⟨by rw [hzero]; exact Nat.succ_pos _, fun r' => ?_⟩
    rw [hzero, List.cons_append, scriptLength, hend, if_pos h]
  | case4 c r h hopen ih =>
    have hlength : 3 ≤ r.length := by
      have hle := (List.isPrefixOf_iff_prefix.mp hopen).length_le
      exact Nat.le_of_succ_le_succ hle
    refine (ih hlength).succ ?_ fun r' => ?_
    · rw [scriptLength, if_neg h, if_pos hopen]
    · rw [scriptLength, hend, if_neg h, hprefix, if_pos hopen]
  | case5 c r h hopen ih =>
    refine (ih (Nat.zero_le _)).succ ?_ fun r' => ?_
    · rw [scriptLength, if_neg h, if_neg hopen]
    · rw [scriptLength, hend, if_neg h, hprefix, if_neg hopen]
  | case6 dashes c r h =>
    have hzero : scriptLength 0 (.hidden dashes) (c :: r) = 0 := by rw [scriptLength, if_pos h]
    refine .inl ⟨by rw [hzero]; exact Nat.succ_pos _, fun r' => ?_⟩
    rw [hzero, List.cons_append, scriptLength, hend, if_pos h]
  | case7 dashes c r h hopen ih =>
    refine (ih (length_le_of_startsName hopen.2)).succ ?_ fun r' => ?_
    · rw [scriptLength, if_neg h, if_pos hopen]
    · rw [scriptLength, hend, if_neg h, hstart, if_pos hopen]
  | case8 dashes c r h hopen ih =>
    refine (ih (Nat.zero_le _)).succ ?_ fun r' => ?_
    · rw [scriptLength, if_neg h, if_neg hopen]
    · rw [scriptLength, hend, if_neg h, hstart, if_neg hopen]
  | case9 dashes c r h ih =>
    refine (ih (length_le_of_startsEnd h)).succ ?_ fun r' => ?_
    · rw [scriptLength, if_pos h]
    · rw [scriptLength, hend, if_pos h]
  | case10 dashes c r h ih =>
    refine (ih (Nat.zero_le _)).succ ?_ fun r' => ?_
    · rw [scriptLength, if_neg h]
    · rw [scriptLength, hend, if_neg h]

theorem scriptLength_closing (skip : Nat) (part : ScriptPart) {s : Text} (hskip : skip ≤ s.length) :
    SparesLength (scriptLength skip part (s ++ closing)) (scriptLength skip part s) s := by
  rw [closing_eq]
  rcases endsBefore skip part hskip with ⟨hlt, heq⟩ | ⟨last, heq⟩
  · exact .inr ⟨heq _, hlt⟩
  · refine .inl ?_
    rw [heq, ← closing_eq, scriptLength_tag]

/-- A script that its end tag ends right behind it is ended there whatever comes next. -/
theorem scriptLength_append_end {s : Text}
    (h : scriptLength 0 .plain (s ++ "</script>".toList) = s.length) (r : Text) :
    scriptLength 0 .plain (s ++ ("</script>".toList ++ r)) = s.length := by
  have hend : "</script>".toList = '<' :: "/script>".toList := rfl
  rw [hend] at h ⊢
  rw [List.cons_append]
  rcases endsBefore 0 .plain (Nat.zero_le s.length) with ⟨hlt, heq⟩ | ⟨last, heq⟩
  · exact absurd (heq _ ▸ h) (Nat.ne_of_lt hlt)
  · rw [heq] at h ⊢
    cases last with
    | plain => rfl
    | hidden => rfl
    | nested dashes =>
      have hpos : scriptLength 0 (.nested dashes) ('<' :: "/script>".toList) =
          scriptLength 8 (.hidden 0) "/script>".toList + 1 := rfl
      omega

end RawText

end TerseMarkup.Html
