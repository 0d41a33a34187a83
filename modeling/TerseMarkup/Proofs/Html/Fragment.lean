import TerseMarkup.Html.Document
import TerseMarkup.Html.Markup
import TerseMarkup.Proofs.Text.Occurrence

/-! Texts that are no fragments.

A marker stands in a text in any case, and one that does not end in a `>` counts only if no character
behind it goes on with its name: a `<header>` is no `<head>`. With that a text is a fragment exactly
if every marker in it goes on (`isFragment_eq_true_iff`), and no tag of a whole document does. The
keyword of a doctype can, since a doctype needs no space before its name; such a doctype is missed,
and a template has no place for it (`doctype_missed`). -/
namespace TerseMarkup.Html.Fragment

/-- A marker of a whole document at the end of which nothing goes on with its name. -/
def Counts (marker r : Text) : Prop :=
  marker.lower ∈ ends ∨ marker.lower ∈ starts ∧ continuesName r = false

theorem startsMarker_iff (s : Text) :
    startsMarker s = true ↔ ∃ marker r, s = marker ++ r ∧ Counts marker r := by
  simp only [startsMarker, Bool.or_eq_true, List.any_eq_true, Option.isSome_iff_exists,
    Option.any_eq_true, Text.afterIgnoringCase?_eq_some_iff, Bool.not_eq_true']
  constructor
  · rintro (⟨_, hmem, r, marker, rfl, rfl⟩ | ⟨_, hmem, r, ⟨marker, rfl, rfl⟩, hover⟩)
    · exact ⟨marker, r, rfl, .inl hmem⟩
    · exact ⟨marker, r, rfl, .inr ⟨hmem, hover⟩⟩
  · rintro ⟨marker, r, rfl, hmem | ⟨hmem, hover⟩⟩
    · exact .inl ⟨_, hmem, r, marker, rfl, rfl⟩
    · exact .inr ⟨_, hmem, r, ⟨marker, rfl, rfl⟩, hover⟩

/-- Every place of a text is looked at. -/
theorem isFragment_eq_false_iff (s : Text) :
    isFragment s = false ↔ ∃ before r, s = before ++ r ∧ startsMarker r = true := by
  induction s with
  | nil =>
    refine iff_of_false (by decide) ?_
    rintro ⟨before, r, hsplit, hmarker⟩
    obtain ⟨rfl, rfl⟩ := List.append_eq_nil_iff.mp hsplit.symm
    exact absurd hmarker (by decide)
  | cons c s ih =>
    rw [isFragment, Bool.and_eq_false_iff, Bool.not_eq_false', ih]
    constructor
    · rintro (hmarker | ⟨before, r, rfl, hmarker⟩)
      · exact ⟨[], c :: s, rfl, hmarker⟩
      · exact ⟨c :: before, r, rfl, hmarker⟩
    · rintro ⟨before, r, hsplit, hmarker⟩
      cases before with
      | nil => exact .inl (hsplit ▸ hmarker)
      | cons d before => exact .inr ⟨before, r, (List.cons.inj hsplit).2, hmarker⟩

/-- **A text is a fragment exactly if every marker in it goes on as another name.** -/
theorem isFragment_eq_true_iff (s : Text) :
    isFragment s = true ↔ ∀ before marker r, s = before ++ (marker ++ r) → ¬ Counts marker r := by
  rw [← Bool.not_eq_false, isFragment_eq_false_iff]
  simp only [startsMarker_iff]
  constructor
  · exact fun h before marker r hs hcounts => h ⟨before, _, hs, marker, r, rfl, hcounts⟩
  · rintro h ⟨before, _, hs, marker, r, rfl, hcounts⟩
    exact h before marker r hs hcounts

/-! ### Markup of a whole document -/

/-- What a reader takes for markup of a whole document where a text starts with it: a doctype,
whatever follows its keyword, an end tag, or a start tag with its name over. -/
inductive StartsDocument : Text → Prop
  | doctype {mark r : Text} (h : mark.lower = "<!doctype".toList) : StartsDocument (mark ++ r)
  | finish {mark r : Text} (h : mark.lower ∈ ["</body>".toList, "</html>".toList]) :
    StartsDocument (mark ++ r)
  | start {mark r : Text} (h : mark.lower ∈ ["<html".toList, "<head".toList, "<body".toList])
      (hover : ∀ c, r.head? = some c → Tag.endsName c = true) : StartsDocument (mark ++ r)

/-- A doctype with its name directly behind the keyword. -/
def NamesDoctype (s : Text) : Prop :=
  ∃ mark r, s = mark ++ r ∧ mark.lower = "<!doctype".toList ∧ continuesName r = true

theorem continuesName_of_over {r : Text} (h : ∀ c, r.head? = some c → Tag.endsName c = true) :
    continuesName r = false := by
  cases r with
  | nil => rfl
  | cons c r =>
    have hc := h c rfl
    simp only [Tag.endsName, Text.isSpace, Bool.or_eq_true, beq_iff_eq] at hc
    rcases hc with ((((((rfl | rfl) | rfl) | rfl) | rfl) | rfl) | rfl) <;> rfl

/-- Such markup has a marker that counts, unless it is a doctype whose name follows directly. -/
theorem StartsDocument.exists_counts {s : Text} (h : StartsDocument s) (hname : ¬ NamesDoctype s) :
    ∃ marker r, s = marker ++ r ∧ Counts marker r := by
  cases h with
  | @doctype mark r h =>
    refine ⟨mark, r, rfl, .inr ⟨h ▸ by decide, ?_⟩⟩
    exact Bool.eq_false_iff.mpr fun hgoes => hname ⟨mark, r, rfl, h, hgoes⟩
  | @finish mark r h => exact ⟨mark, r, rfl, .inl h⟩
  | @start mark r h hover =>
    have hsubset : ["<html".toList, "<head".toList, "<body".toList] ⊆ starts := by decide
    exact ⟨mark, r, rfl, .inr ⟨hsubset h, continuesName_of_over hover⟩⟩

/-- **A document is not taken for a fragment** by any markup of a whole document in it but doctypes
whose names follow directly, so it is not read inside a template. It is taken for one exactly if
every marker in it goes on as another name. -/
theorem document_isFragment_iff (s : Text) :
    (∀ before r, s = before ++ r → StartsDocument r → ¬ NamesDoctype r →
        isFragment s = false ∧ Document.parse s = Document.tree s) ∧
      (isFragment s = true ↔
        ∀ before marker r, s = before ++ (marker ++ r) → ¬ Counts marker r) := by
  refine ⟨fun before r hs hdocument hname => ?_, isFragment_eq_true_iff s⟩
  have hfalse : isFragment s = false := by
    obtain ⟨marker, r', rfl, hcounts⟩ := hdocument.exists_counts hname
    rw [← Bool.not_eq_true, isFragment_eq_true_iff]
    exact fun h => h before marker r' hs hcounts
  exact ⟨hfalse, by rw [Document.parse, hfalse, if_neg Bool.false_ne_true]⟩

/-- A doctype that needs no space before its name is lost with the document around it. -/
theorem doctype_missed :
    let s := "<!doctypehtml><p>x".toList
    StartsDocument s ∧ isFragment s = true ∧
      (Document.parse s).toOption.bind Node.markup? = some "<p>x</p>".toList ∧
      (Document.tree s).toOption.bind Node.markup? =
        some "<!DOCTYPE html><html><head></head><body><p>x</p></body></html>".toList := by
  intro s
  have hdoctype : StartsDocument s :=
    @StartsDocument.doctype "<!doctype".toList "html><p>x".toList (by decide)
  exact ⟨hdoctype, by decide +kernel, by decide +kernel, by decide +kernel⟩

end TerseMarkup.Html.Fragment
