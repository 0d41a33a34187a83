import TerseMarkup.Html.Document
import TerseMarkup.Proofs.Html.Construction.Rules
import TerseMarkup.Proofs.Html.Token.Closing.Reading

/-! Reading a text from one token to the next.

`Reads` goes from a state of construction, with a text left to read, to a later state with the rest
of the text. It says nothing of the number of readings that `constructFrom` has to be given
(`Reads.constructFrom`). What is stable lasts through it (`Reads.kept`), and what is read before an
end tag is read without it as well (`Reads.withoutClosing`). -/
namespace TerseMarkup.Html
open Builder Stable

namespace Document

/-- One reading, and construction with what has been read. -/
def readOn (b : Builder) (s : Text) : Builder × Text :=
  let reading := Token.read b.content b.takesSections s
  (reading.tokens.foldl Builder.accept { b with content := reading.content }, reading.rest)

inductive Reads : Builder → Text → Builder → Text → Prop
  | refl (b : Builder) (s : Text) : Reads b s b s
  | step {b b' : Builder} {s s' : Text} : s ≠ [] →
    Reads (readOn b s).1 (readOn b s).2 b' s' → Reads b s b' s'

/-- Where at most this many readings lead to. -/
def readings : Nat → Builder → Text → Builder × Text
  | 0, b, s => (b, s)
  | n + 1, b, s => if s = [] then (b, s) else readings n (readOn b s).1 (readOn b s).2

theorem reads_readings (n : Nat) (b : Builder) (s : Text) :
    Reads b s (readings n b s).1 (readings n b s).2 := by
  fun_induction readings n b s with
  | case1 | case2 => exact .refl _ _
  | case3 n b s hs ih => exact .step hs ih

theorem constructFrom_succ (fuel : Nat) (b : Builder) {s : Text} (hs : s ≠ []) :
    constructFrom (fuel + 1) b s = constructFrom fuel (readOn b s).1 (readOn b s).2 := by
  obtain ⟨c, r, rfl⟩ := List.exists_cons_of_ne_nil hs
  rfl

theorem constructFrom_nil (fuel : Nat) (b : Builder) : constructFrom fuel b [] = b := by
  cases fuel <;> rfl

/-- As many readings as there are characters are enough. -/
theorem constructFrom_of_le {fuel fuel' : Nat} {b : Builder} {s : Text} (h : s.length ≤ fuel)
    (h' : s.length ≤ fuel') : constructFrom fuel b s = constructFrom fuel' b s := by
  induction fuel generalizing fuel' b s with
  | zero =>
    obtain rfl := List.eq_nil_of_length_eq_zero (Nat.le_zero.mp h)
    rw [constructFrom_nil, constructFrom_nil]
  | succ fuel ih =>
    by_cases hs : s = []
    · rw [hs, constructFrom_nil, constructFrom_nil]
    have hlt : (readOn b s).2.length < s.length := Token.read_lt _ _ hs
    cases fuel' with
    | zero => exact absurd (List.eq_nil_of_length_eq_zero (Nat.le_zero.mp h')) hs
    | succ fuel' =>
      rw [constructFrom_succ _ _ hs, constructFrom_succ _ _ hs]
      exact ih (by omega) (by omega)

/-- Construction to the end of the text, whatever has been read of it. -/
theorem Reads.constructFrom {b b' : Builder} {s s' : Text} (h : Reads b s b' s') :
    constructFrom s.length b s = constructFrom s'.length b' s' := by
  induction h with
  | refl => rfl
  | @step b b' s s' hs _ ih =>
    obtain ⟨n, hn⟩ : ∃ n, s.length = n + 1 :=
      Nat.exists_eq_succ_of_ne_zero fun h => hs (List.eq_nil_of_length_eq_zero h)
    have hlt : (readOn b s).2.length < s.length := Token.read_lt _ _ hs
    rw [← ih, hn, constructFrom_succ _ _ hs]
    exact constructFrom_of_le (by omega) (Nat.le_refl _)

section Kept

variable {P : Builder → Prop} {Q : Handle → Tag → Prop} {b b' : Builder} {s s' : Text}

theorem kept_readOn (hP : Stable P Q) (hout : KeptOutside P) (h : Kept P b) (hs : s ≠ []) :
    Kept P (readOn b s).1 := by
  have hone := hP.constructFrom hout 1 h s
  rwa [constructFrom_succ _ _ hs] at hone

theorem Reads.kept (hP : Stable P Q) (hout : KeptOutside P) (h : Kept P b)
    (hreads : Reads b s b' s') : Kept P b' := by
  induction hreads with
  | refl => exact h
  | step hs _ ih => exact ih (kept_readOn hP hout h hs)

/-! ### Before an end tag -/

theorem passes_of_isKnown {content : Content} (h : content.IsKnown) : content.Passes := by
  have hall : ∀ name ∈ rawNames, '<' ∉ name.toList ∧
      RawText.length name.toList closing = closing.length := by decide
  cases content with
  | escapable name | raw name => exact hall name h
  | data | script | plain => trivial

/-- The end tag is read whole, as a tag or as text. -/
theorem read_closing_rest {content : Content} (h : content.Passes) (sections : Bool) :
    (Token.read content sections closing).rest = [] := by
  have hraw (tokens : Text → List Token) :
      (Token.readRaw content closing.length tokens closing).rest = [] := rfl
  cases content with
  | data => rfl
  | escapable name | raw name =>
    rw [Token.read, h.2]
    exact hraw _
  | script =>
    rw [Token.read, Token.readScript, RawText.scriptLength_tag]
    exact hraw fun t => [.text t.withoutNull]
  | plain => rfl

theorem not_reads_closing (h : Reads b [] b' closing) : False := by
  cases h with
  | step hs => exact hs rfl

/-- **What is read before an end tag is read without it** just the same. -/
theorem Reads.withoutClosing (hP : Stable P Q) (hout : KeptOutside P) (h : Kept P b)
    (hreads : Reads b (s ++ closing) b' closing) : Reads b s b' [] := by
  generalize hwhole : s ++ closing = whole at hreads
  generalize hlast : closing = last at hreads
  induction hreads generalizing s with
  | refl b whole =>
    subst hlast
    obtain rfl : s = [] := List.self_eq_append_left.mp hwhole.symm
    exact .refl b []
  | @step b b' whole last hne hmore ih =>
    subst hwhole hlast
    have hpasses := passes_of_isKnown (hP.isKnown_of_kept h)
    by_cases hs : s = []
    · subst hs
      have hrest : (readOn b ([] ++ closing)).2 = [] := read_closing_rest hpasses _
      rw [hrest] at hmore
      exact (not_reads_closing hmore).elim
    rcases Token.read_closing hpasses b.takesSections hs with hrest | hpart
    · have hrest : (readOn b (s ++ closing)).2 = [] := hrest
      rw [hrest] at hmore
      exact (not_reads_closing hmore).elim
    · have hread : readOn b (s ++ closing) = ((readOn b s).1, (readOn b s).2 ++ closing) := by
        rw [readOn, hpart]
        rfl
      rw [hread] at ih
      exact .step hs (ih (kept_readOn hP hout h hs) rfl rfl)

end Kept

end Document
end TerseMarkup.Html
