import TerseMarkup.Proofs.Css.Lexeme.Written

/-! Lexemes with other names.

`Recoded` puts codes for names and values in a sequence of lexemes: for an identifier, for an id
with its hash, and for a string. What comes out stands again (`Recoded.standing`), so it is read as
it was put together. Two marks have to be kept out of the way: two hyphens make `-->` of a bracket
behind them, and complete `<!--` behind its start. -/
namespace TerseMarkup.Css

namespace Lexeme

/-- The lexemes, some of them exchanged for written codes. `before` is the text that the new ones
stand behind. -/
inductive Recoded : (before : Text) → List Lexeme → List Lexeme → Prop
  | nil (before : Text) : Recoded before [] []
  | keep {before : Text} {ls ls' : List Lexeme} (l : Lexeme) :
    Recoded (before ++ l.text) ls ls' → Recoded before (l :: ls) (l :: ls')
  | ident {before v code : Text} {l : Lexeme} {ls ls' : List Lexeme} :
    l.token = .ident v → code ≠ [] → '\x00' ∉ code →
    (code = ['-', '-'] → (ls'.flatMap text).head? ≠ some '>') →
    (['-', '-'] <+: code → ¬ ['<', '!'] <:+ before) →
    Recoded (before ++ writeIdent code) ls ls' →
    Recoded before (l :: ls) (⟨.ident code, writeIdent code⟩ :: ls')
  | idHash {before v code : Text} {l : Lexeme} {ls ls' : List Lexeme} :
    l.token = .idHash v → code ≠ [] → '\x00' ∉ code →
    Recoded (before ++ '#' :: writeIdent code) ls ls' →
    Recoded before (l :: ls) (⟨.idHash code, '#' :: writeIdent code⟩ :: ls')
  | string {before v code : Text} {l : Lexeme} {ls ls' : List Lexeme} :
    l.token = .string v → '\x00' ∉ code →
    Recoded (before ++ writeString code) ls ls' →
    Recoded before (l :: ls) (⟨.string code, writeString code⟩ :: ls')

namespace Recoded

variable {before : Text} {ls ls' : List Lexeme}

/-- Lexemes that are kept stand before the others. -/
theorem append (kept : List Lexeme) (h : Recoded (before ++ kept.flatMap text) ls ls') :
    Recoded before (kept ++ ls) (kept ++ ls') := by
  induction kept generalizing before with
  | nil => simpa using h
  | cons l kept ih =>
    refine .keep l (ih ?_)
    rwa [List.flatMap_cons, ← List.append_assoc] at h

/-- New lexemes look to what is before them as the old ones did. -/
theorem alike (h : Recoded before ls ls') (hls : Standing ls) :
    Alike (ls.flatMap text) (ls'.flatMap text) := by
  induction h with
  | nil => exact .refl []
  | keep l _ ih => exact (ih hls.2).append l.text
  | ident htoken hne _ hclose =>
    refine .ident (hls.1.ident htoken).1 ⟨startsIdent_writeIdent hne _, ?_⟩
    rw [Bool.eq_false_iff]
    intro h
    obtain ⟨hcode, hhead⟩ := eq_of_isPrefixOf_close hne h
    exact hclose hcode hhead
  | idHash htoken =>
    obtain ⟨⟨t, htext⟩, -⟩ := hls.1.idHash htoken
    rw [List.flatMap_cons, htext]
    exact .stop (stops_cons rfl _) (stops_cons rfl _)
  | string htoken =>
    obtain ⟨q, t, htext, hq⟩ := hls.1.string htoken
    rw [List.flatMap_cons, htext]
    exact .string _ _ hq rfl

/-- Where there were no lexemes there are none. -/
theorem eq_nil (h : Recoded before ls ls') (hls : Standing ls) (hnil : ls.flatMap text = []) :
    ls'.flatMap text = [] := by
  cases ls with
  | nil =>
    cases h
    rfl
  | cons l ls =>
    obtain ⟨c, t, htext, -⟩ := hls.1
    rw [List.flatMap_cons, htext] at hnil
    cases hnil

/-- A bracket goes on with the mark `<!--` or stands alone. -/
theorem read_less (s : Text) :
    read '<' s = if "!--".toList.isPrefixOf s then (.commentOpen, 4) else (.delim '<', 1) := by
  have hopen : "<!--".toList.isPrefixOf ('<' :: s) = "!--".toList.isPrefixOf s := rfl
  have hident : startsIdent ('<' :: s) = false := startsIdent_of_ne (by decide) (by decide) s
  have hnumber : startsNumber ('<' :: s) = false := by
    rw [startsNumber_of_ne (by decide) (by decide), startsUnsigned_cons]
    rfl
  simp [read, Text.isSpace, hident, hnumber]

theorem read_exclamation (s : Text) : read '!' s = (.delim '!', 1) := by
  have hident : startsIdent ('!' :: s) = false := startsIdent_of_ne (by decide) (by decide) s
  have hnumber : startsNumber ('!' :: s) = false := by
    rw [startsNumber_of_ne (by decide) (by decide), startsUnsigned_cons]
    rfl
  simp [read, Text.isSpace, hident, hnumber]

theorem name_le_readIdentLike (s : Text) : (name s).2 ≤ (readIdentLike s).2 := by
  rw [readIdentLike_eq]
  split
  · split
    · split <;> simp only <;> omega
    · exact Nat.le_succ _
  · exact Nat.le_refl _

/-- Two hyphens belong to one lexeme. -/
theorem two_le_read_hyphen (s : Text) : 2 ≤ (read '-' ('-' :: s)).2 := by
  have hident : startsIdent ('-' :: '-' :: s) = true := startsIdent_hyphen _
  have hname : 2 ≤ (name ('-' :: '-' :: s)).2 := by
    have hhyphen : isNameChar '-' = true := by decide
    simp only [name, nameFrom, if_neg (show ¬ '-' = '\\' by decide), if_pos hhyphen]
    omega
  by_cases hclose : "-->".toList.isPrefixOf ('-' :: '-' :: s) = true
  · obtain ⟨t, ht⟩ := List.isPrefixOf_iff_prefix.mp hclose
    obtain rfl : '>' :: t = s := (List.cons.inj (List.cons.inj ht).2).2
    exact Nat.le_succ 2
  · rw [read_of_begins ⟨hident, Bool.eq_false_iff.mpr hclose⟩]
    exact hname.trans (name_le_readIdentLike _)

variable {before : Text} {ls ls' : List Lexeme}

/-- Behind `<!` two hyphens stand only where they stood before. -/
theorem not_hyphens (h : Recoded before ls ls') (hls : Standing ls) (hls' : Standing ls')
    (hbefore : ['<', '!'] <:+ before) (hr : ¬ ['-', '-'] <+: ls.flatMap text) :
    ¬ ['-', '-'] <+: ls'.flatMap text := by
  intro hmark
  cases h with
  | nil => exact hr hmark
  | ident _ hne _ _ hopen =>
    rw [List.flatMap_cons] at hmark
    exact hopen (prefix_of_prefix_writeIdent hne hmark) hbefore
  | idHash | string => exact absurd (List.cons_prefix_cons.mp hmark).1 (by decide)
  | keep l =>
    obtain ⟨c, t, htext, hread⟩ := hls'.1
    rw [List.flatMap_cons, htext, List.cons_append, List.cons_prefix_cons] at hmark hr
    obtain ⟨rfl, hmark⟩ := hmark
    cases t with
    | nil =>
      obtain ⟨s, hs⟩ := hmark
      have htwo := two_le_read_hyphen s
      rw [← hs] at hread
      rw [show read '-' ('-' :: s) = _ from hread] at htwo
      exact absurd htwo (by simp)
    | cons d t =>
      rw [List.cons_append, List.cons_prefix_cons] at hmark hr
      exact hr ⟨rfl, hmark.1, List.nil_prefix⟩

/-- The mark `<!--` is not made by new names. -/
theorem not_open (h : Recoded before ls ls') (hls : Standing ls) (hls' : Standing ls')
    (hbefore : ['<'] <:+ before) (hr : ¬ ['!', '-', '-'] <+: ls.flatMap text) :
    ¬ ['!', '-', '-'] <+: ls'.flatMap text := by
  intro hmark
  cases h with
  | nil => exact hr hmark
  | @ident _ _ _ _ _ ms' _ hne =>
    have hstart := startsIdent_writeIdent hne (ms'.flatMap text)
    obtain ⟨s, hs⟩ := hmark
    rw [List.flatMap_cons] at hs
    rw [← hs] at hstart
    exact absurd (isIdentHead_of_startsIdent hstart) (by decide)
  | idHash | string => exact absurd (List.cons_prefix_cons.mp hmark).1 (by decide)
  | keep l h =>
    obtain ⟨c, t, htext, hread⟩ := hls.1
    rw [List.flatMap_cons, htext, List.cons_append, List.cons_prefix_cons] at hmark hr
    obtain ⟨rfl, hmark⟩ := hmark
    obtain rfl : t = [] := by
      rw [read_exclamation] at hread
      exact List.eq_nil_of_length_eq_zero (Nat.succ.inj (congrArg Prod.snd hread)).symm
    obtain ⟨u, rfl⟩ := hbefore
    refine h.not_hyphens hls.2 hls'.2 ⟨u, ?_⟩ (fun h => hr ⟨rfl, h⟩) hmark
    rw [htext, List.append_assoc]
    rfl

/-- **Names put in the place of names stand**, each written so that it is read as it was meant. -/
theorem standing (h : Recoded before ls ls') (hls : Standing ls) : Standing ls' := by
  induction h with
  | nil => trivial
  | @keep before ms ms' l h ih =>
    have hms' := ih hls.2
    refine ⟨?_, hms'⟩
    obtain ⟨c, t, htext, hread⟩ := hls.1
    refine ⟨c, t, htext, ?_⟩
    rw [(h.alike hls.2).read_append (h.eq_nil hls.2) (congrArg Prod.snd hread), hread]
    -- The one thing that `l` might see is a mark, which starts with a bracket alone.
    intro hmark
    have hwhole : ['<', '!', '-', '-'] <+: c :: (t ++ ms'.flatMap text) :=
      List.isPrefixOf_iff_prefix.mp hmark
    obtain ⟨rfl, hmore⟩ := List.cons_prefix_cons.mp hwhole
    by_contra hopen
    have hnot : ¬ ['!', '-', '-'] <+: t ++ ms.flatMap text := fun hprefix =>
      hopen (List.isPrefixOf_iff_prefix.mpr (List.cons_prefix_cons.mpr ⟨rfl, hprefix⟩))
    obtain rfl : t = [] := by
      have hfalse : "!--".toList.isPrefixOf (t ++ ms.flatMap text) = false :=
        Bool.eq_false_iff.mpr fun h => hnot (List.isPrefixOf_iff_prefix.mp h)
      rw [read_less, hfalse, if_neg Bool.false_ne_true] at hread
      exact List.eq_nil_of_length_eq_zero (Nat.succ.inj (congrArg Prod.snd hread)).symm
    exact h.not_open hls.2 hms' ⟨before, by rw [htext]⟩ hnot hmore
  | ident htoken hne hnull hclose hopen h ih =>
    obtain ⟨hbegins, hstop, hparen⟩ := hls.1.ident htoken
    have halike := h.alike hls.2
    refine ⟨standsBefore_writeIdent hne hnull ?_ ?_ hclose, ih hls.2⟩
    · rw [halike.nameFrom_zero hstop, hstop]
    · rwa [Ne, ← halike.head?_eq_some rfl rfl rfl]
  | idHash htoken hne hnull h ih =>
    obtain ⟨-, hstop⟩ := hls.1.idHash htoken
    refine ⟨standsBefore_hash hne hnull ?_, ih hls.2⟩
    rw [(h.alike hls.2).nameFrom_zero hstop, hstop]
  | string _ hnull h ih => exact ⟨standsBefore_writeString hnull _, ih hls.2⟩

end Recoded

end Lexeme
end TerseMarkup.Css
