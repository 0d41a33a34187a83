import TerseMarkup.Html.Token.Read
import TerseMarkup.Proofs.Text.Occurrence

/-! Every reading takes something.

What a reader leaves is an end of the text that it was given, and a token takes at least one
character. -/
namespace TerseMarkup

namespace Text

theorem suffix_of_after? {start t rest : Text} (h : after? start t = some rest) : rest <:+ t := by
  rw [after?, List.isPrefixOf?_eq_some_iff_append_eq] at h
  exact h ▸ List.suffix_append _ _

theorem suffix_of_afterIgnoringCase? {start t rest : Text}
    (h : afterIgnoringCase? start t = some rest) : rest <:+ t := by
  obtain ⟨spelled, rfl, -⟩ := (afterIgnoringCase?_eq_some_iff start t rest).mp h
  exact List.suffix_append _ _

theorem suffix_of_cut? {part t before rest : Text} (h : cut? part t = some (before, rest)) :
    rest <:+ t :=
  cut?_eq_some h ▸ List.suffix_append _ _

theorem span_suffix (p : Char → Bool) (t : Text) : (t.span p).2 <:+ t := by
  rw [List.span_eq_takeWhile_dropWhile]
  exact List.dropWhile_suffix p

end Text

namespace Html

theorem Comment.body_suffix (s : Text) : (Comment.body s).2 <:+ s := by
  fun_induction Comment.body s with
  | case1 => exact List.suffix_refl _
  | case2 | case3 | case4 => exact List.nil_suffix
  | case5 r => exact List.suffix_append ['-', '-', '>'] r
  | case6 r => exact List.suffix_append ['-', '-', '!', '>'] r
  | case7 c r _ _ _ _ _ contents rest heq ih =>
    rw [heq] at ih
    exact ih.trans (List.suffix_cons c r)

theorem Comment.read_suffix (s : Text) : (Comment.read s).2 <:+ s := by
  rw [Comment.read.eq_def]
  split
  · exact List.suffix_cons _ _
  · exact List.suffix_append ['-', '>'] _
  · exact Comment.body_suffix s

theorem Comment.readOther_suffix (s : Text) : (Comment.readOther s).2 <:+ s :=
  (List.drop_suffix _ _).trans (Text.span_suffix _ s)

namespace Doctype

theorem skipSpace_suffix (s : Text) : skipSpace s <:+ s := List.dropWhile_suffix _

theorem skip_suffix (s : Text) : skip s <:+ s :=
  (List.drop_suffix _ _).trans (List.dropWhile_suffix _)

theorem identifier_suffix (quote : Char) (s : Text) : (identifier quote s).2.2 <:+ s := by
  have hspan := Text.span_suffix (fun c => c ≠ quote && c ≠ '>') s
  rw [identifier]
  rcases hs : s.span fun c => c ≠ quote && c ≠ '>' with ⟨spelled, rest⟩
  rw [hs] at hspan
  cases rest with
  | nil => exact List.nil_suffix
  | cons c r =>
    dsimp only
    by_cases hc : c = quote
    · rw [if_pos hc]
      exact (List.suffix_cons c r).trans hspan
    · rw [if_neg hc]
      exact hspan

theorem readEnd_suffix (d : Doctype) (s : Text) : (readEnd d s).2 <:+ s := by
  rw [readEnd]
  split
  · exact List.nil_suffix
  · exact (skip_suffix _).trans (skipSpace_suffix s)

theorem readSystem_suffix (d : Doctype) (quote : Char) (s : Text) :
    (readSystem d quote s).2 <:+ s := by
  have hidentifier := identifier_suffix quote s
  rw [readSystem]
  dsimp only
  split
  · exact (readEnd_suffix _ _).trans hidentifier
  · exact (skip_suffix _).trans hidentifier

theorem readBetween_suffix (d : Doctype) (s : Text) : (readBetween d s).2 <:+ s := by
  have hspace := skipSpace_suffix s
  rw [readBetween]
  split
  next heq => exact (List.suffix_cons _ _).trans (heq ▸ hspace)
  next heq =>
    exact ((readSystem_suffix _ _ _).trans (List.suffix_cons _ _)).trans (heq ▸ hspace)
  next heq =>
    exact ((readSystem_suffix _ _ _).trans (List.suffix_cons _ _)).trans (heq ▸ hspace)
  · exact (skip_suffix _).trans hspace

theorem readPublic_suffix (d : Doctype) (quote : Char) (s : Text) :
    (readPublic d quote s).2 <:+ s := by
  have hidentifier := identifier_suffix quote s
  rw [readPublic]
  dsimp only
  split
  · exact (readBetween_suffix _ _).trans hidentifier
  · exact (skip_suffix _).trans hidentifier

/-- An identifier between quotes, read by `reader`, or what there is instead. -/
def readQuoted (reader : Doctype → Char → Text → Doctype × Text) (d : Doctype) :
    Text → Doctype × Text
  | '"' :: r => reader d '"' r
  | '\'' :: r => reader d '\'' r
  | rest => spoiled d rest

theorem readQuoted_suffix {reader : Doctype → Char → Text → Doctype × Text} {d : Doctype}
    (hreader : ∀ quote r, (reader d quote r).2 <:+ r) (s : Text) :
    (readQuoted reader d s).2 <:+ s := by
  unfold readQuoted
  split
  · exact (hreader _ _).trans (List.suffix_cons _ _)
  · exact (hreader _ _).trans (List.suffix_cons _ _)
  · exact skip_suffix _

theorem readIdentifiers_suffix (d : Doctype) (s : Text) : (readIdentifiers d s).2 <:+ s := by
  have hspace := skipSpace_suffix s
  have hquoted {reader : Doctype → Char → Text → Doctype × Text} {rest : Text}
      (hreader : ∀ quote r, (reader d quote r).2 <:+ r) (hrest : rest <:+ skipSpace s) :
      (readQuoted reader d (skipSpace rest)).2 <:+ skipSpace s :=
    ((readQuoted_suffix hreader _).trans (skipSpace_suffix rest)).trans hrest
  refine List.IsSuffix.trans ?_ hspace
  rw [readIdentifiers]
  split
  next heq => exact heq ▸ List.suffix_cons _ _
  · split
    next hpublic => exact hquoted (readPublic_suffix d) (Text.suffix_of_afterIgnoringCase? hpublic)
    · split
      next hsystem => exact hquoted (readSystem_suffix d) (Text.suffix_of_afterIgnoringCase? hsystem)
      · exact skip_suffix _

theorem read_suffix (s : Text) : (Doctype.read s).2 <:+ s := by
  have hspace := skipSpace_suffix s
  rw [Doctype.read]
  split
  · exact List.nil_suffix
  next heq => exact (List.suffix_cons _ _).trans (heq ▸ hspace)
  · exact ((readIdentifiers_suffix _ _).trans (Text.span_suffix _ _)).trans hspace

end Doctype

namespace Tag

theorem quoted_suffix {quote : Char} {r value rest : Text}
    (h : readValue?.quoted quote r = some (value, rest)) : rest <:+ r := by
  have hspan := Text.span_suffix (· ≠ quote) r
  rw [readValue?.quoted] at h
  split at h
  · exact nomatch h
  next heq =>
    obtain ⟨-, rfl⟩ := Prod.mk.inj (Option.some.inj h)
    rw [heq] at hspan
    exact (List.suffix_cons _ _).trans hspan

theorem readValue?_suffix {s value rest : Text} (h : readValue? s = some (value, rest)) :
    rest <:+ s := by
  have hspace : s.dropWhile Text.isSpace <:+ s := List.dropWhile_suffix _
  rw [readValue?] at h
  split at h
  · exact nomatch h
  next heq => exact ((quoted_suffix h).trans (List.suffix_cons _ _)).trans (heq ▸ hspace)
  next heq => exact ((quoted_suffix h).trans (List.suffix_cons _ _)).trans (heq ▸ hspace)
  · obtain ⟨-, rfl⟩ := Prod.mk.inj (Option.some.inj h)
    exact (Text.span_suffix _ _).trans hspace

theorem attributesFrom_suffix {fuel : Nat} {found attributes : List Attribute} {s rest : Text}
    {closed : Bool} (h : attributesFrom fuel found s = some (attributes, closed, rest)) :
    rest <:+ s := by
  induction fuel generalizing found s with
  | zero => exact nomatch h
  | succ fuel ih =>
    have hspace : s.dropWhile Text.isSpace <:+ s := List.dropWhile_suffix _
    rw [attributesFrom] at h
    refine List.IsSuffix.trans ?_ hspace
    split at h
    · exact nomatch h
    next heq =>
      obtain ⟨-, -, rfl⟩ := by simpa using h
      exact heq ▸ List.suffix_cons _ _
    next heq =>
      obtain ⟨-, -, rfl⟩ := by simpa using h
      exact heq ▸ List.suffix_append ['/', '>'] _
    next heq => exact heq ▸ (ih h).trans (List.suffix_cons _ _)
    next c r _ _ _ heq =>
      rw [heq]
      refine List.IsSuffix.trans ?_ (List.suffix_cons c r)
      refine List.IsSuffix.trans ?_ (Text.span_suffix (fun c => !(endsName c || c == '=')) r)
      refine List.IsSuffix.trans ?_ (List.dropWhile_suffix Text.isSpace)
      split at h
      next spelled behind hspan =>
        rw [hspan]
        split at h
        next hequals =>
          rw [hequals]
          simp only [Option.bind_eq_bind, Option.bind_eq_some_iff] at h
          obtain ⟨⟨value, behind⟩, hvalue, h⟩ := h
          exact ((ih h).trans (readValue?_suffix hvalue)).trans (List.suffix_cons _ _)
        · exact ih h

theorem read?_suffix {s rest : Text} {tag : Tag} (h : read? s = some (tag, rest)) : rest <:+ s := by
  rw [read?] at h
  simp only [Option.bind_eq_bind, Option.bind_eq_some_iff] at h
  obtain ⟨⟨attributes, closed, behind⟩, hattributes, h⟩ := h
  obtain ⟨-, rfl⟩ := Prod.mk.inj (Option.some.inj h)
  exact (attributesFrom_suffix hattributes).trans (Text.span_suffix _ s)

end Tag

namespace Token

theorem readDeclaration_suffix (sections : Bool) (s : Text) :
    (readDeclaration sections s).rest <:+ s := by
  rw [readDeclaration]
  split
  next h => exact (Comment.read_suffix _).trans (Text.suffix_of_after? h)
  · split
    next h => exact (Doctype.read_suffix _).trans (Text.suffix_of_afterIgnoringCase? h)
    · split
      next h =>
        split at h
        · split
          next hcut => exact (Text.suffix_of_cut? hcut).trans (Text.suffix_of_after? h)
          · exact List.nil_suffix
        · exact nomatch h
      · exact Comment.readOther_suffix s

theorem readEnd_suffix (s : Text) : (readEnd s).rest <:+ s := by
  rw [readEnd.eq_def]
  split
  · exact List.nil_suffix
  · exact List.suffix_cons _ _
  · split
    · split
      next h => exact Tag.read?_suffix h
      · exact List.nil_suffix
    · exact Comment.readOther_suffix (_ :: _)

theorem readMarkup_suffix (sections : Bool) (s : Text) : (readMarkup sections s).rest <:+ s := by
  rw [readMarkup.eq_def]
  split
  · exact (readDeclaration_suffix _ _).trans (List.suffix_cons _ _)
  · exact (readEnd_suffix _).trans (List.suffix_cons _ _)
  · exact Comment.readOther_suffix ('?' :: _)
  · split
    · split
      next h => exact Tag.read?_suffix h
      · exact List.nil_suffix
    · exact List.suffix_refl _

theorem length_lt_of_suffix {s rest : Text} {c : Char} (h : rest <:+ s) :
    rest.length < (c :: s).length := Nat.lt_succ_of_le h.length_le

/-- Plain text runs up to the next character that starts something else. -/
theorem readData_lt (sections : Bool) {s : Text} (hs : s ≠ []) :
    (readData sections s).rest.length < s.length := by
  obtain ⟨c, r, rfl⟩ := List.exists_cons_of_ne_nil hs
  rw [readData.eq_def]
  split
  next heq =>
    obtain ⟨-, rfl⟩ := List.cons.inj heq
    exact length_lt_of_suffix (readMarkup_suffix _ _)
  next heq =>
    obtain ⟨-, rfl⟩ := List.cons.inj heq
    exact length_lt_of_suffix (List.suffix_refl _)
  next hmarkup hnull =>
    have hc : (c ≠ '<' && c ≠ '\x00') = true := by
      simp only [Bool.and_eq_true, decide_eq_true_eq]
      exact ⟨fun h => hmarkup r (h ▸ rfl), fun h => hnull r (h ▸ rfl)⟩
    show (List.span _ (c :: r)).2.length < _
    rw [List.span_eq_takeWhile_dropWhile]
    dsimp only
    rw [List.dropWhile_cons_of_pos (p := fun c => c ≠ '<' && c ≠ '\x00') hc]
    exact length_lt_of_suffix (List.dropWhile_suffix _)

theorem readRaw_lt (content : Content) (length : Nat) (tokens : Text → List Token) {s : Text}
    (hs : s ≠ []) : (readRaw content length tokens s).rest.length < s.length := by
  have hpos : 0 < s.length := List.length_pos_of_ne_nil hs
  rw [readRaw]
  split
  · rw [readRawEnd]
    split
    next rest h =>
      have hlt : rest.length ≤ s.length - 2 := (Tag.read?_suffix h).length_le.trans_eq
        List.length_drop
      show rest.length < s.length
      omega
    · exact hpos
  · show (s.drop length).length < s.length
    rw [List.length_drop]
    omega

theorem dropByteOrderMark_suffix (s : Text) : dropByteOrderMark s <:+ s := by
  rw [dropByteOrderMark.eq_def]
  split
  · split
    · exact List.suffix_cons _ _
    · exact List.suffix_refl _
  · exact List.suffix_refl _

/-- **A reading takes a character**, at least. -/
theorem read_lt (content : Content) (sections : Bool) {s : Text} (hs : s ≠ []) :
    (read content sections s).rest.length < s.length := by
  cases content with
  | data => exact readData_lt sections hs
  | escapable name => exact readRaw_lt _ _ _ hs
  | raw name => exact readRaw_lt _ _ _ hs
  | script =>
    show (readScript s).rest.length < s.length
    rw [readScript]
    split
    · exact Nat.lt_of_le_of_lt (dropByteOrderMark_suffix _).length_le (readRaw_lt _ _ _ hs)
    · exact readRaw_lt _ _ _ hs
  | plain => exact List.length_pos_of_ne_nil hs

theorem content_readDeclaration (sections : Bool) (s : Text) :
    (readDeclaration sections s).content = .data := by
  rw [readDeclaration]
  split
  · rfl
  · split
    · rfl
    · split
      · split <;> rfl
      · rfl

theorem content_readEnd (s : Text) : (readEnd s).content = .data := by
  rw [readEnd.eq_def]
  split
  · rfl
  · rfl
  · split
    · split <;> rfl
    · rfl

theorem content_readData (sections : Bool) (s : Text) : (readData sections s).content = .data := by
  rw [readData.eq_def]
  split
  · rw [readMarkup.eq_def]
    split
    · exact content_readDeclaration _ _
    · exact content_readEnd _
    · rfl
    · split
      · split <;> rfl
      · rfl
  · rfl
  · rfl

theorem content_readRaw (content : Content) (length : Nat) (tokens : Text → List Token) (s : Text) :
    (readRaw content length tokens s).content = .data ∨
      (readRaw content length tokens s).content = content := by
  rw [readRaw]
  split
  · rw [readRawEnd]
    split <;> exact .inl rfl
  · exact .inr rfl

/-- A text goes on as it has begun, or as markup. -/
theorem content_read (content : Content) (sections : Bool) (s : Text) :
    (read content sections s).content = .data ∨ (read content sections s).content = content := by
  cases content with
  | data => exact .inl (content_readData sections s)
  | escapable name => exact content_readRaw _ _ _ s
  | raw name => exact content_readRaw _ _ _ s
  | script =>
    have hraw := content_readRaw .script (RawText.scriptLength 0 .plain s)
      (fun t => [text t.withoutNull]) s
    rw [read, readScript]
    split <;> exact hraw
  | plain => exact .inr rfl

end Token

end Html
end TerseMarkup
