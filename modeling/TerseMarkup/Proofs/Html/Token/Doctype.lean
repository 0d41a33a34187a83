import TerseMarkup.Html.Markup
import TerseMarkup.Html.Token.Read
import TerseMarkup.Proofs.Html.Token.Closing.Doctype
import TerseMarkup.Proofs.Html.Token.Written
import TerseMarkup.Proofs.Text.Characters

/-! Doctypes read from what has been written.

A doctype ends at its first `>`, whatever it holds (`rest_read`), and neither its name nor its
identifiers can hold one (`plain_read`). So what is written for a doctype is one doctype again, with
its name, and what follows is read as before. The identifiers are written between double quotes and
are read up to the first of these: they come back exactly if they hold none (`read_writeDoctype_iff`).
An identifier that is read between single quotes can hold one. -/
namespace TerseMarkup.Html

namespace Doctype

variable {d : Doctype}

/-! ### Where a doctype ends -/

theorem skip_append {x : Text} (hx : '>' ∉ x) (r : Text) : skip (x ++ r) = skip r := by
  rw [skip, skip, List.dropWhile_append_of_pos]
  intro c hc
  simpa using fun heq : c = '>' => hx (heq ▸ hc)

theorem skip_skipSpace (s : Text) : skip (skipSpace s) = skip s := by
  have hspaces : '>' ∉ s.takeWhile Text.isSpace := by
    intro h
    exact absurd (List.mem_takeWhile_imp h) (by decide)
  calc skip (skipSpace s)
      _ = skip (s.takeWhile Text.isSpace ++ s.dropWhile Text.isSpace) := (skip_append hspaces _).symm
      _ = skip s := by rw [List.takeWhile_append_dropWhile]

theorem skip_of_keyword {keyword s r : Text} (hkeyword : '>' ∉ keyword)
    (h : Text.afterIgnoringCase? keyword s = some r) : skip r = skip s := by
  obtain ⟨spelled, rfl, rfl⟩ := (Text.afterIgnoringCase?_eq_some_iff _ _ _).mp h
  exact (skip_append (fun hmem => hkeyword (List.mem_map_of_mem hmem)) r).symm

/-- An identifier stands before its quote, or its quote is missing before the `>` or the end. -/
theorem identifier_cases (quote : Char) (s : Text) :
    ∃ spelled rest, s = spelled ++ rest ∧ (∀ c ∈ spelled, c ≠ quote ∧ c ≠ '>') ∧
      ((∃ r, rest = quote :: r ∧ identifier quote s = (spelled.withoutNull, true, r)) ∨
        identifier quote s = (spelled.withoutNull, false, rest)) := by
  set p : Char → Bool := fun c => c ≠ quote && c ≠ '>' with hp
  refine ⟨s.takeWhile p, s.dropWhile p, List.takeWhile_append_dropWhile.symm, fun c hc => ?_, ?_⟩
  · simpa [hp] using List.mem_takeWhile_imp hc
  · rw [identifier, List.span_eq_takeWhile_dropWhile]
    dsimp only
    cases hrest : s.dropWhile p with
    | nil => exact .inr rfl
    | cons c r =>
      dsimp only
      split
      next hc => exact .inl ⟨r, hc ▸ rfl, rfl⟩
      · exact .inr rfl

/-- The quotes that an identifier can stand between. -/
def IsQuote (c : Char) : Prop := c = '"' ∨ c = '\''

theorem skip_identifier {quote : Char} (hquote : IsQuote quote) (s : Text) :
    skip (identifier quote s).2.2 = skip s := by
  obtain ⟨spelled, rest, rfl, hspelled, ⟨r, rfl, h⟩ | h⟩ := identifier_cases quote s
  all_goals rw [h, skip_append fun hmem => (hspelled _ hmem).2 rfl]
  refine (skip_append (x := [quote]) ?_ r).symm
  rcases hquote with rfl | rfl <;> decide

theorem rest_readEnd (d : Doctype) (s : Text) : (readEnd d s).2 = skip s := by
  rw [readEnd, ← skip_skipSpace s]
  split
  next h => rw [h]; rfl
  · rfl

theorem rest_readSystem (d : Doctype) {quote : Char} (hquote : IsQuote quote) (s : Text) :
    (readSystem d quote s).2 = skip s := by
  rw [readSystem, ← skip_identifier hquote s]
  dsimp only
  split
  · exact rest_readEnd _ _
  · rfl

theorem rest_readBetween (d : Doctype) (s : Text) : (readBetween d s).2 = skip s := by
  rw [readBetween, ← skip_skipSpace s]
  split
  next r h => rw [h]; rfl
  next r h => rw [h, rest_readSystem _ (.inl rfl)]; rfl
  next r h => rw [h, rest_readSystem _ (.inr rfl)]; rfl
  · rfl

theorem rest_readPublic (d : Doctype) {quote : Char} (hquote : IsQuote quote) (s : Text) :
    (readPublic d quote s).2 = skip s := by
  rw [readPublic, ← skip_identifier hquote s]
  dsimp only
  split
  · exact rest_readBetween _ _
  · rfl

theorem rest_readQuoted {reader : Doctype → Char → Text → Doctype × Text}
    (hreader : ∀ quote, IsQuote quote → ∀ r, (reader d quote r).2 = skip r) (s : Text) :
    (readQuoted reader d s).2 = skip s := by
  unfold readQuoted
  split
  · rw [hreader _ (.inl rfl)]; rfl
  · rw [hreader _ (.inr rfl)]; rfl
  · rfl

theorem rest_readKeyword (d : Doctype) (s : Text) : (readKeyword d s).2 = skip s := by
  rw [readKeyword]
  split
  next r h =>
    rw [rest_readQuoted fun _ hquote => rest_readPublic d hquote, skip_skipSpace]
    exact skip_of_keyword (by decide) h
  · split
    next r h =>
      rw [rest_readQuoted fun _ hquote => rest_readSystem d hquote, skip_skipSpace]
      exact skip_of_keyword (by decide) h
    · rfl

theorem rest_readUnlessEnded {reader : Text → Doctype × Text}
    (hreader : ∀ s, (reader s).2 = skip s) (s : Text) :
    (readUnlessEnded d reader s).2 = skip s := by
  unfold readUnlessEnded
  split
  · rfl
  · exact hreader _

theorem rest_readNamed (s : Text) : (readNamed s).2 = skip s := by
  have hname : '>' ∉ s.takeWhile fun c => !(Text.isSpace c || c == '>') := by
    intro h
    exact absurd (List.mem_takeWhile_imp h) (by decide)
  rw [readNamed, List.span_eq_takeWhile_dropWhile]
  dsimp only
  rw [readIdentifiers_eq, rest_readUnlessEnded (rest_readKeyword _), skip_skipSpace,
    ← skip_append hname, List.takeWhile_append_dropWhile]

/-- **A doctype ends at its first `>`**, whatever it holds. -/
theorem rest_read (s : Text) : (read s).2 = skip s := by
  rw [← skip_skipSpace s]
  cases hs : skipSpace s with
  | nil => rw [read, hs]; rfl
  | cons c r => rw [read_of_cons hs, rest_readUnlessEnded rest_readNamed]

/-! ### What a doctype can hold -/

/-- Text without what ends a doctype and without NUL. -/
def IsIdentifier (t : Text) : Prop := '>' ∉ t ∧ '\x00' ∉ t

/-- A name that ends neither itself nor the doctype, in small letters. -/
def IsName (t : Text) : Prop :=
  ∀ c ∈ t, Text.isSpace c = false ∧ c ≠ '>' ∧ c ≠ '\x00' ∧ c.toLower = c

/-- What a doctype that has been read is made of. -/
structure Plain (d : Doctype) : Prop where
  name : IsName (d.name.getD [])
  publicId : IsIdentifier (d.publicId.getD [])
  systemId : IsIdentifier (d.systemId.getD [])

theorem isIdentifier_nil : IsIdentifier [] := ⟨List.not_mem_nil, List.not_mem_nil⟩

theorem mem_withoutNull {t : Text} {c : Char} (hc : c ≠ Text.replacement)
    (h : c ∈ t.withoutNull) : c ∈ t ∧ c ≠ '\x00' := by
  rw [Text.withoutNull, List.mem_map] at h
  obtain ⟨e, he, heq⟩ := h
  split at heq
  · exact absurd heq.symm hc
  next hnull => exact heq ▸ ⟨he, hnull⟩

theorem identifier_fst (quote : Char) (s : Text) :
    ∃ spelled : Text, (identifier quote s).1 = spelled.withoutNull ∧
      ∀ c ∈ spelled, c ≠ quote ∧ c ≠ '>' := by
  obtain ⟨spelled, _, -, hspelled, ⟨_, -, h⟩ | h⟩ := identifier_cases quote s
  all_goals exact ⟨spelled, congrArg Prod.fst h, hspelled⟩

theorem isIdentifier_identifier (quote : Char) (s : Text) : IsIdentifier (identifier quote s).1 := by
  obtain ⟨spelled, h, hspelled⟩ := identifier_fst quote s
  rw [h]
  constructor
  · exact fun hmem => (hspelled _ (mem_withoutNull (by decide) hmem).1).2 rfl
  · exact fun hmem => (mem_withoutNull (by decide) hmem).2 rfl

/-- An identifier does not hold the quote that it stands between. -/
theorem not_mem_identifier {quote : Char} (hquote : IsQuote quote) (s : Text) :
    quote ∉ (identifier quote s).1 := by
  obtain ⟨spelled, h, hspelled⟩ := identifier_fst quote s
  have hne : quote ≠ Text.replacement := by rcases hquote with rfl | rfl <;> decide
  exact h ▸ fun hmem => (hspelled _ (mem_withoutNull hne hmem).1).1 rfl

theorem readEnd_fst (d : Doctype) (s : Text) : ∃ damaged, (readEnd d s).1 = { d with damaged } := by
  rw [readEnd]
  split
  · exact ⟨true, rfl⟩
  · exact ⟨d.damaged, rfl⟩

theorem readSystem_fst (d : Doctype) (quote : Char) (s : Text) :
    ∃ damaged, (readSystem d quote s).1 =
      { d with systemId := some (identifier quote s).1, damaged } := by
  rw [readSystem]
  dsimp only
  split
  · exact readEnd_fst _ _
  · exact ⟨true, rfl⟩

theorem readBetween_fst (d : Doctype) (s : Text) :
    ∃ systemId damaged, (readBetween d s).1 = { d with systemId, damaged } ∧
      (systemId = d.systemId ∨ ∃ quote r, systemId = some (identifier quote r).1) := by
  have hsystem (quote : Char) (r : Text) : ∃ systemId damaged,
      (readSystem d quote r).1 = { d with systemId, damaged } ∧
        (systemId = d.systemId ∨ ∃ quote r, systemId = some (identifier quote r).1) := by
    obtain ⟨damaged, h⟩ := readSystem_fst d quote r
    exact ⟨_, damaged, h, .inr ⟨quote, r, rfl⟩⟩
  rw [readBetween]
  split
  · exact ⟨d.systemId, d.damaged, rfl, .inl rfl⟩
  · exact hsystem '"' _
  · exact hsystem '\'' _
  · exact ⟨d.systemId, true, rfl, .inl rfl⟩

theorem readPublic_fst (d : Doctype) (quote : Char) (s : Text) :
    ∃ systemId damaged, (readPublic d quote s).1 =
        { d with publicId := some (identifier quote s).1, systemId, damaged } ∧
      (systemId = d.systemId ∨ ∃ quote r, systemId = some (identifier quote r).1) := by
  rw [readPublic]
  dsimp only
  split
  · exact readBetween_fst _ _
  · exact ⟨d.systemId, true, rfl, .inl rfl⟩

theorem Plain.readSystem (h : d.Plain) (quote : Char) (s : Text) :
    (readSystem d quote s).1.Plain := by
  obtain ⟨damaged, heq⟩ := readSystem_fst d quote s
  rw [heq]
  exact ⟨h.name, h.publicId, isIdentifier_identifier quote s⟩

theorem Plain.readPublic (h : d.Plain) (quote : Char) (s : Text) :
    (readPublic d quote s).1.Plain := by
  obtain ⟨systemId, damaged, heq, hsystem⟩ := readPublic_fst d quote s
  rw [heq]
  refine ⟨h.name, isIdentifier_identifier quote s, ?_⟩
  rcases hsystem with rfl | ⟨quote, r, rfl⟩
  · exact h.systemId
  · exact isIdentifier_identifier quote r

theorem Plain.readQuoted (h : d.Plain) {reader : Doctype → Char → Text → Doctype × Text}
    (hreader : ∀ quote r, (reader d quote r).1.Plain) (s : Text) :
    (readQuoted reader d s).1.Plain := by
  unfold Doctype.readQuoted
  split
  · exact hreader _ _
  · exact hreader _ _
  · exact { h with }

theorem Plain.readIdentifiers (h : d.Plain) (s : Text) : (readIdentifiers d s).1.Plain := by
  rw [readIdentifiers_eq, readUnlessEnded.eq_def]
  split
  · exact h
  · rw [readKeyword]
    split
    · exact h.readQuoted h.readPublic _
    · split
      · exact h.readQuoted h.readSystem _
      · exact { h with }

/-- A name is read in small letters. -/
theorem isName_lower {t : Text} (h : ∀ c ∈ t, Text.isSpace c = false ∧ c ≠ '>') :
    IsName (Text.lower t).withoutNull := by
  intro c hc
  rw [Text.withoutNull, List.mem_map] at hc
  obtain ⟨e, he, rfl⟩ := hc
  split
  · decide
  next hnull =>
    rw [Text.lower, List.mem_map] at he
    obtain ⟨e, he, rfl⟩ := he
    obtain ⟨hspace, hend⟩ := h e he
    refine ⟨?_, fun heq => hend ((toLower_eq_iff (by decide)).mp heq), hnull, toLower_toLower e⟩
    simp only [Text.isSpace, Bool.or_eq_false_iff, beq_eq_false_iff_ne, ne_eq] at hspace ⊢
    simpa only [toLower_eq_iff (d := ' ') (by decide), toLower_eq_iff (d := '\t') (by decide),
      toLower_eq_iff (d := '\n') (by decide), toLower_eq_iff (d := '\x0c') (by decide),
      toLower_eq_iff (d := '\r') (by decide)] using hspace

/-- **What a doctype that is read can hold.** -/
theorem plain_read (s : Text) : (read s).1.Plain := by
  have hnone : Plain { damaged := true } :=
    ⟨fun c hc => absurd hc List.not_mem_nil, isIdentifier_nil, isIdentifier_nil⟩
  cases hs : skipSpace s with
  | nil => rw [read, hs]; exact hnone
  | cons c r =>
    rw [read_of_cons hs, readUnlessEnded.eq_def]
    split
    · exact hnone
    · rw [readNamed, List.span_eq_takeWhile_dropWhile]
      have hname : Plain { name := some (Text.lower
          ((c :: r).takeWhile fun c => !(Text.isSpace c || c == '>'))).withoutNull } :=
        ⟨isName_lower fun c hc => by simpa using List.mem_takeWhile_imp hc, isIdentifier_nil,
          isIdentifier_nil⟩
      exact hname.readIdentifiers _

/-! ### Reading what has been written -/

section Written
open Markup

theorem identifier_written {v : Text} (hv : IsIdentifier v) (hquote : '"' ∉ v) (r : Text) :
    identifier '"' (v ++ '"' :: r) = (v, true, r) := by
  have hspan : (v ++ '"' :: r).span (fun c => c ≠ '"' && c ≠ '>') = (v, '"' :: r) := by
    refine span_append (fun c hc => ?_) fun c hc => ?_
    · simpa using ⟨fun heq : c = '"' => hquote (heq ▸ hc), fun heq : c = '>' => hv.1 (heq ▸ hc)⟩
    · obtain rfl := Option.some.inj hc
      rfl
  rw [identifier, hspan]
  dsimp only
  rw [withoutNull_eq hv.2, if_pos rfl]

/-- An identifier is read as it is written exactly if it does not hold the quote. -/
theorem identifier_written_iff {v : Text} (hv : IsIdentifier v) (r : Text) :
    (identifier '"' (v ++ '"' :: r)).1 = v ↔ '"' ∉ v := by
  refine ⟨fun h => h ▸ not_mem_identifier (.inl rfl) _, fun h => ?_⟩
  rw [identifier_written hv h]

/-- The identifiers as they stand behind the name. -/
def writeIdentifiers (publicId systemId : Text) : Text :=
  if !publicId.isEmpty then
    " PUBLIC".toList ++ writeIdentifier publicId ++
      if systemId.isEmpty then [] else writeIdentifier systemId
  else if !systemId.isEmpty then " SYSTEM".toList ++ writeIdentifier systemId
  else []

theorem writeDoctype_append (name publicId systemId r : Text) :
    writeDoctype name publicId systemId ++ r = "<!DOCTYPE".toList ++
      ' ' :: (name ++ (writeIdentifiers publicId systemId ++ '>' :: r)) := by
  have hopening : "<!DOCTYPE ".toList = "<!DOCTYPE".toList ++ [' '] := rfl
  show "<!DOCTYPE ".toList ++ name ++ writeIdentifiers publicId systemId ++ ['>'] ++ r = _
  rw [hopening]
  simp only [List.append_assoc, List.singleton_append]
  rfl

theorem not_mem_writeIdentifiers {publicId systemId : Text} (hpublic : IsIdentifier publicId)
    (hsystem : IsIdentifier systemId) : '>' ∉ writeIdentifiers publicId systemId := by
  have hwritten {v : Text} (hv : IsIdentifier v) : '>' ∉ writeIdentifier v :=
    List.not_mem_append (List.not_mem_append (by decide) hv.1) (by decide)
  rw [writeIdentifiers]
  split
  · refine List.not_mem_append (List.not_mem_append (by decide) (hwritten hpublic)) ?_
    split
    · exact List.not_mem_nil
    · exact hwritten hsystem
  · split
    · exact List.not_mem_append (by decide) (hwritten hsystem)
    · exact List.not_mem_nil

/-- Behind the name there is a space or the end of the doctype. -/
theorem stops_writeIdentifiers (publicId systemId r : Text) :
    ∀ c, (writeIdentifiers publicId systemId ++ '>' :: r).head? = some c →
      (Text.isSpace c || c == '>') = true := by
  intro c hc
  rw [writeIdentifiers] at hc
  split at hc
  · obtain rfl := Option.some.inj hc
    decide
  · split at hc
    all_goals
      obtain rfl := Option.some.inj hc
      decide

theorem read_named {name r : Text} (hname : IsName name) (hne : name ≠ [])
    (hr : ∀ c, r.head? = some c → (Text.isSpace c || c == '>') = true) :
    read (' ' :: (name ++ r)) = readIdentifiers { name := some name } r := by
  obtain ⟨c, more, rfl⟩ := List.exists_cons_of_ne_nil hne
  obtain ⟨hspace, hend, -⟩ := hname c List.mem_cons_self
  have hskip : skipSpace (' ' :: (c :: more ++ r)) = c :: (more ++ r) := by
    rw [skipSpace, List.dropWhile_cons_of_pos (by decide), List.cons_append,
      List.dropWhile_cons_of_neg (by simp [hspace])]
  have hspan : (c :: more ++ r).span (fun c => !(Text.isSpace c || c == '>')) = (c :: more, r) := by
    refine span_append (fun c hc => ?_) fun c hc => ?_
    · simp [(hname c hc).1, (hname c hc).2.1]
    · rw [hr c hc]
      rfl
  have hlower : Text.lower (c :: more) = c :: more :=
    (List.map_congr_left fun c hc => (hname c hc).2.2.2).trans (List.map_id _)
  rw [read_of_cons hskip, readUnlessEnded.eq_2 _ _ _ fun _ heq => hend (List.cons.inj heq).1,
    readNamed, ← List.cons_append, hspan]
  dsimp only
  rw [hlower, withoutNull_eq fun h => (hname _ h).2.2.1 rfl]

theorem readIdentifiers_public (d : Doctype) (v r : Text) :
    readIdentifiers d (" PUBLIC".toList ++ writeIdentifier v ++ r) =
      readPublic d '"' (v ++ '"' :: r) := by
  rw [writeIdentifier, List.append_assoc, List.append_assoc, List.append_assoc]
  rfl

theorem readIdentifiers_system (d : Doctype) (v r : Text) :
    readIdentifiers d (" SYSTEM".toList ++ writeIdentifier v ++ r) =
      readSystem d '"' (v ++ '"' :: r) := by
  rw [writeIdentifier, List.append_assoc, List.append_assoc, List.append_assoc]
  rfl

theorem readPublic_written (d : Doctype) {v : Text} (hv : IsIdentifier v) (hquote : '"' ∉ v)
    (r : Text) :
    readPublic d '"' (v ++ '"' :: r) = readBetween { d with publicId := some v } r := by
  rw [readPublic, identifier_written hv hquote]
  rfl

theorem readBetween_written {v : Text} (hv : IsIdentifier v) {d : Doctype}
    (hnone : d.systemId = none) (r : Text) :
    ∃ systemId damaged,
      (readBetween d ((if v.isEmpty then [] else writeIdentifier v) ++ '>' :: r)).1 =
          { d with systemId, damaged } ∧ (systemId.getD [] = v ↔ '"' ∉ v) := by
  split
  next hempty =>
    rw [List.isEmpty_iff] at hempty
    subst hempty
    refine ⟨none, d.damaged, ?_, iff_of_true rfl List.not_mem_nil⟩
    rw [← hnone]
    rfl
  next hsome =>
    have hread : readBetween d (writeIdentifier v ++ '>' :: r) =
        readSystem d '"' (v ++ '"' :: '>' :: r) := by
      rw [writeIdentifier, List.append_assoc, List.append_assoc]
      rfl
    obtain ⟨damaged, heq⟩ := readSystem_fst d '"' (v ++ '"' :: '>' :: r)
    exact ⟨some _, damaged, hread ▸ heq, identifier_written_iff hv _⟩

/-- The identifiers come back exactly if neither holds the quote that they are written with. -/
theorem readIdentifiers_written {publicId systemId : Text} (hpublic : IsIdentifier publicId)
    (hsystem : IsIdentifier systemId) (name : Option Text) (r : Text) :
    ∃ publicId' systemId' damaged,
      (readIdentifiers { name } (writeIdentifiers publicId systemId ++ '>' :: r)).1 =
          { name, publicId := publicId', systemId := systemId', damaged } ∧
        (publicId'.getD [] = publicId ∧ systemId'.getD [] = systemId ↔
          '"' ∉ publicId ∧ '"' ∉ systemId) := by
  rw [writeIdentifiers]
  split
  next hsome =>
    rw [List.append_assoc, readIdentifiers_public]
    by_cases hquote : '"' ∈ publicId
    · obtain ⟨systemId', damaged, heq, -⟩ := readPublic_fst { name } '"' (publicId ++ '"' ::
        ((if systemId.isEmpty then [] else writeIdentifier systemId) ++ '>' :: r))
      refine ⟨_, systemId', damaged, heq, iff_of_false ?_ fun h => h.1 hquote⟩
      exact fun h => (identifier_written_iff hpublic _).mp h.1 hquote
    · rw [readPublic_written _ hpublic hquote]
      obtain ⟨systemId', damaged, heq, hiff⟩ := readBetween_written hsystem
        (d := { name, publicId := some publicId }) rfl r
      exact ⟨_, systemId', damaged, heq, and_congr (iff_of_true rfl hquote) hiff⟩
  next hnone =>
    rw [Bool.not_eq_true, Bool.not_eq_false', List.isEmpty_iff] at hnone
    subst hnone
    split
    next hsome =>
      rw [readIdentifiers_system]
      obtain ⟨damaged, heq⟩ := readSystem_fst { name } '"' (systemId ++ '"' :: '>' :: r)
      exact ⟨none, _, damaged, heq, and_congr (iff_of_true rfl List.not_mem_nil)
        (identifier_written_iff hsystem _)⟩
    next hnone =>
      rw [Bool.not_eq_true, Bool.not_eq_false', List.isEmpty_iff] at hnone
      subst hnone
      exact ⟨none, none, false, rfl, iff_of_true ⟨rfl, rfl⟩ ⟨List.not_mem_nil, List.not_mem_nil⟩⟩

end Written

end Doctype

namespace Token
open Markup

/-! ### Doctypes among the tokens -/

theorem doctype_not_mem_ofEscaped (d : Doctype) (s : Text) : doctype d ∉ ofEscaped s := by
  rw [ofEscaped]
  split <;> simp

theorem doctype_not_mem_ofLiteral (d : Doctype) (s : Text) : doctype d ∉ ofLiteral s := by
  rw [ofLiteral, List.mem_map]
  rintro ⟨run, -, heq⟩
  split at heq <;> cases heq

theorem exists_read_of_mem_readDeclaration {sections : Bool} {s : Text} {d : Doctype}
    (h : doctype d ∈ (readDeclaration sections s).tokens) : ∃ r, d = (Doctype.read r).1 := by
  rw [readDeclaration] at h
  split at h
  · simp at h
  · split at h
    next r _ => exact ⟨r, by simpa using h⟩
    · split at h
      · split at h
        · exact absurd h (doctype_not_mem_ofLiteral d _)
        · exact absurd h (doctype_not_mem_ofLiteral d _)
      · simp at h

theorem doctype_not_mem_readEnd (d : Doctype) (s : Text) : doctype d ∉ (readEnd s).tokens := by
  rw [readEnd.eq_def]
  split
  · simp
  · simp
  · split
    · split <;> simp
    · simp

theorem doctype_not_mem_readRaw {content : Content} {length : Nat} {tokens : Text → List Token}
    {d : Doctype} (htokens : ∀ t, doctype d ∉ tokens t) (s : Text) :
    doctype d ∉ (readRaw content length tokens s).tokens := by
  rw [readRaw]
  split
  · rw [readRawEnd]
    split <;> simp
  · exact htokens _

theorem exists_read_of_mem_readData {sections : Bool} {s : Text} {d : Doctype}
    (h : doctype d ∈ (readData sections s).tokens) : ∃ r, d = (Doctype.read r).1 := by
  rw [readData.eq_def] at h
  split at h
  · rw [readMarkup.eq_def] at h
    split at h
    · exact exists_read_of_mem_readDeclaration h
    · exact absurd h (doctype_not_mem_readEnd d _)
    · simp at h
    · split at h
      · split at h <;> simp at h
      · simp at h
  · simp at h
  · exact absurd h (doctype_not_mem_ofEscaped d _)

/-- Every doctype among the tokens is what a doctype has been read as. -/
theorem exists_read_of_mem {content : Content} {sections : Bool} {s : Text} {d : Doctype}
    (h : doctype d ∈ (read content sections s).tokens) : ∃ r, d = (Doctype.read r).1 := by
  have hraw : ∀ t : Text, doctype d ∉ [text t.withoutNull] := fun t => by simp
  cases content with
  | data => exact exists_read_of_mem_readData h
  | escapable name => exact absurd h (doctype_not_mem_readRaw (doctype_not_mem_ofEscaped d) s)
  | raw name => exact absurd h (doctype_not_mem_readRaw hraw s)
  | script =>
    rw [read, readScript] at h
    split at h
    · exact absurd h (doctype_not_mem_readRaw hraw s)
    · exact absurd h (doctype_not_mem_readRaw hraw s)
  | plain => exact absurd h (hraw s)

theorem readData_doctype (sections : Bool) (r : Text) :
    readData sections ("<!DOCTYPE".toList ++ r) =
      ⟨[doctype (Doctype.read r).1], (Doctype.read r).2, .data⟩ := rfl

/-- One doctype is read for what is written for one, and what follows is read as before. -/
theorem readData_writeDoctype {name publicId systemId : Text} (hname : Doctype.IsName name)
    (hne : name ≠ []) (hpublic : Doctype.IsIdentifier publicId)
    (hsystem : Doctype.IsIdentifier systemId) (sections : Bool) (r : Text) :
    ∃ publicId' systemId' damaged, readData sections (writeDoctype name publicId systemId ++ r) =
        ⟨[doctype ⟨some name, publicId', systemId', damaged⟩], r, .data⟩ ∧
      (publicId'.getD [] = publicId ∧ systemId'.getD [] = systemId ↔
        '"' ∉ publicId ∧ '"' ∉ systemId) := by
  set identifiers := Doctype.writeIdentifiers publicId systemId
  have hread : Doctype.read (' ' :: (name ++ (identifiers ++ '>' :: r))) =
      Doctype.readIdentifiers { name := some name } (identifiers ++ '>' :: r) :=
    Doctype.read_named hname hne (Doctype.stops_writeIdentifiers _ _ r)
  have hrest : (Doctype.read (' ' :: (name ++ (identifiers ++ '>' :: r)))).2 = r := by
    have hbefore : '>' ∉ ' ' :: (name ++ identifiers) := by
      refine List.not_mem_cons_of_ne_of_not_mem (by decide) (List.not_mem_append ?_ ?_)
      · exact fun h => (hname _ h).2.1 rfl
      · exact Doctype.not_mem_writeIdentifiers hpublic hsystem
    rw [Doctype.rest_read, ← List.append_assoc, ← List.cons_append, Doctype.skip_append hbefore]
    rfl
  obtain ⟨publicId', systemId', damaged, heq, hiff⟩ :=
    Doctype.readIdentifiers_written hpublic hsystem (some name) r
  refine ⟨publicId', systemId', damaged, ?_, hiff⟩
  rw [Doctype.writeDoctype_append, readData_doctype, hrest, hread, heq]

/-- **A doctype comes back from what is written for it exactly if neither of its identifiers holds a
double quote.** In any case one doctype with its name is read, and what follows is read as before. -/
theorem read_writeDoctype_iff {content : Content} {sections : Bool} {s : Text} {d : Doctype}
    (hd : doctype d ∈ (read content sections s).tokens) (hname : d.name.getD [] ≠ [])
    (sections' : Bool) (r : Text) :
    ∃ d', read .data sections'
        (writeDoctype (d.name.getD []) (d.publicId.getD []) (d.systemId.getD []) ++ r) =
          ⟨[doctype d'], r, .data⟩ ∧ d'.name = d.name ∧
      (d'.publicId.getD [] = d.publicId.getD [] ∧ d'.systemId.getD [] = d.systemId.getD [] ↔
        '"' ∉ d.publicId.getD [] ∧ '"' ∉ d.systemId.getD []) := by
  obtain ⟨source, hsource⟩ := exists_read_of_mem hd
  have hplain : d.Plain := hsource ▸ Doctype.plain_read source
  cases hsome : d.name with
  | none =>
    rw [hsome] at hname
    exact absurd rfl hname
  | some name =>
    obtain ⟨hisName, hpublic, hsystem⟩ := hplain
    rw [hsome] at hname hisName
    obtain ⟨publicId, systemId, damaged, hread, hiff⟩ :=
      readData_writeDoctype hisName hname hpublic hsystem sections' r
    exact ⟨⟨some name, publicId, systemId, damaged⟩, hread, rfl, hiff⟩

/-- Both identifiers, one of them read between single quotes. -/
theorem read_writeDoctype_iff_both :
    let publicId := "-//W3C//DTD HTML 4.01//EN".toList
    let systemId := "it's".toList
    let s := "<!doctype HTML public '-//W3C//DTD HTML 4.01//EN' \"it's\">".toList
    let d : Doctype :=
      { name := some "html".toList, publicId := some publicId, systemId := some systemId }
    (doctype d ∈ (read .data false s).tokens ∧ d.name.getD [] ≠ []) ∧
      ∃ d', read .data false (writeDoctype "html".toList publicId systemId ++ "<p>".toList) =
          ⟨[doctype d'], "<p>".toList, .data⟩ ∧ d'.name = d.name ∧
        d'.publicId.getD [] = publicId ∧ d'.systemId.getD [] = systemId := by
  intro publicId systemId s d
  have hd : doctype d ∈ (read .data false s).tokens := List.mem_singleton.mpr rfl
  have hname : d.name.getD [] ≠ [] := by decide
  obtain ⟨d', hread, hsame, hiff⟩ := read_writeDoctype_iff hd hname false "<p>".toList
  exact ⟨⟨hd, hname⟩, d', hread, hsame, hiff.mpr (by decide)⟩

/-- A double quote in an identifier ends it when it is read again. -/
theorem doctype_cut :
    let d : Doctype := { name := some "html".toList, publicId := some "a\"b".toList }
    doctype d ∈ (read .data false "<!DOCTYPE html PUBLIC 'a\"b'>".toList).tokens ∧
      writeDoctype "html".toList "a\"b".toList [] = "<!DOCTYPE html PUBLIC \"a\"b\">".toList ∧
      (read .data false "<!DOCTYPE html PUBLIC \"a\"b\">".toList).tokens =
        [doctype { name := some "html".toList, publicId := some "a".toList, damaged := true }] :=
  ⟨List.mem_singleton.mpr rfl, rfl, rfl⟩

end Token
end TerseMarkup.Html
