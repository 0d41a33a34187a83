import TerseMarkup.Proofs.Html.Construction.Page
import TerseMarkup.Proofs.Html.Fragment
import TerseMarkup.Proofs.Html.Nesting
import TerseMarkup.Proofs.Html.Token.Doctype
import TerseMarkup.Proofs.Html.Wrapping

/-! Whole pages that come back from their markup.

A page is a doctype and the outermost element, with a head and a body in it; comments may stand
anywhere between these, and spaces between the head and the body (`Node.isPage`). Construction goes
through it in stages, one mode after the other, and each stage reads what is written for its nodes
(`ReadsBack`). -/
namespace TerseMarkup.Html
open Builder Document

/-! ### What a page is -/

/-- A doctype that is read as it is written. -/
def IsWritableDoctype (name publicId systemId : Text) : Prop :=
  name ≠ [] ∧ Doctype.IsName name ∧
    ∀ identifier ∈ [publicId, systemId], Doctype.IsIdentifier identifier ∧ '"' ∉ identifier

instance (name publicId systemId : Text) : Decidable (IsWritableDoctype name publicId systemId) :=
  have : Decidable (Doctype.IsName name) := List.decidableBAll _ _
  have (t : Text) : Decidable (Doctype.IsIdentifier t) := inferInstanceAs (Decidable (_ ∧ _))
  have : Decidable (∀ identifier ∈ [publicId, systemId], Doctype.IsIdentifier identifier ∧
      '"' ∉ identifier) := List.decidableBAll _ _
  inferInstanceAs (Decidable (_ ∧ _ ∧ _))

namespace Node

/-- A comment that is read as it is written. -/
def isRemark : Node → Bool
  | comment c => decide (Token.IsComment c)
  | _ => false

/-- Whether a node is this part of a page, and what is in it nests. -/
def nestsAs (part : String) : Node → Bool
  | element _ name attributes cs =>
    name == ⟨.html, part⟩ && decide (AreWritable attributes) &&
      nestsAll [⟨.html, part⟩, ⟨.html, "html"⟩] cs
  | _ => false

/-- Whether nodes are what may stand behind a head: spaces and comments, the body, and comments. -/
def nestBehindHead : List Node → Bool
  | [] => false
  | text t :: rest => decide (t ≠ []) && isSpaces t && !rest.head?.any isText && nestBehindHead rest
  | comment c :: rest => (comment c).isRemark && nestBehindHead rest
  | n :: rest => n.nestsAs "body" && rest.all isRemark

/-- Whether nodes are what may stand in the outermost element: comments, the head and what comes
behind it. -/
def nestInRoot : List Node → Bool
  | [] => false
  | comment c :: rest => (comment c).isRemark && nestInRoot rest
  | n :: rest => n.nestsAs "head" && nestBehindHead rest

/-- Whether nodes are a page in whose document construction is in this mode: comments, at most one
doctype, the outermost element and comments. -/
def isPage (mode : Mode) : List Node → Bool
  | comment c :: rest => (comment c).isRemark && isPage mode rest
  | doctype name publicId systemId :: rest =>
    mode == .initial && decide (IsWritableDoctype name publicId systemId) && isPage .beforeHtml rest
  | element _ name attributes cs :: rest =>
    name == ⟨.html, "html"⟩ && decide (AreWritable attributes) && nestInRoot cs &&
      rest.all isRemark
  | _ => false

end Node

/-! ### Reading in stages -/

/-- In the state `b`, what is written for these nodes is read for them; with them put behind those
that have been read so far, `P` holds then. -/
def ReadsBack (P : List Node → Builder → Prop) (done : List Node) (b : Builder) (cs : List Node)
    (s r : Text) : Prop :=
  ∃ cs' b', Node.ReadFor cs cs' ∧ P (done ++ cs') b' ∧ Reads b (s ++ r) b' r

section

variable {P Q : List Node → Builder → Prop} {done cs cs' : List Node} {b : Builder} {s s' r : Text}

theorem ReadsBack.nil (h : P done b) (r : Text) : ReadsBack P done b [] [] r :=
  ⟨[], b, .nil, (List.append_nil done).symm ▸ h, .refl _ _⟩

/-- One stage goes on where another one has ended. -/
theorem ReadsBack.trans (h : ReadsBack P done b cs s (s' ++ r))
    (hnext : ∀ {done' : List Node} {b' : Builder}, P done' b' → ReadsBack Q done' b' cs' s' r) :
    ReadsBack Q done b (cs ++ cs') (s ++ s') r := by
  obtain ⟨xs, b', hxs, hP, hreads⟩ := h
  obtain ⟨ys, b'', hys, hQ, hreads'⟩ := hnext hP
  refine ⟨xs ++ ys, b'', hxs.append hys, ?_, ?_⟩
  · rwa [List.append_assoc] at hQ
  · rw [List.append_assoc]
    exact hreads.trans hreads'

theorem readsBack_remark (hcontent : b.content = .data) {c : Text}
    (hc : (Node.comment c).isRemark = true) (h : P (done ++ [.comment c]) (b.accept (.comment c)))
    (r : Text) :
    ReadsBack P done b [.comment c] (Markup.writeComment c) r :=
  ⟨[.comment c], _, .comment c, h, reads_comment hcontent (of_decide_eq_true hc) r⟩

/-- Comments come back in every stage. -/
theorem readsBack_remarks
    (hstep : ∀ {done : List Node} {b : Builder} (c : Text), P done b →
      b.content = .data ∧ P (done ++ [.comment c]) (b.accept (.comment c)))
    (hcs : cs.all Node.isRemark = true) (hs : Node.writtenAll? {} cs = some s) (h : P done b)
    (r : Text) : ReadsBack P done b cs s r := by
  induction cs generalizing done b s with
  | nil =>
    obtain rfl := Option.some.inj hs
    exact .nil h r
  | cons n cs ih =>
    rw [List.all_cons, Bool.and_eq_true] at hcs
    obtain ⟨hn, hrest⟩ := hcs
    obtain ⟨first, others, hfirst, hothers, rfl⟩ := Node.writtenAll?_cons hs
    cases n with
    | comment c =>
      obtain rfl := Option.some.inj hfirst
      obtain ⟨hcontent, hnext⟩ := hstep c h
      exact .trans (readsBack_remark hcontent hn hnext _) fun h' =>
        ih hrest hothers h'
    | element | text | document | doctype | placeholder => cases hn

end

/-! ### The outermost element -/

section Root

variable {before done cs : List Node} {attributes : List Attribute} {b : Builder} {s : Text}

/-- A part of a page comes back: its start tag opens a node in which construction rests, and its end
tag leads on from there. -/
theorem readsBack_part {P : List Node → Builder → Prop} {name : String}
    (hname : name ∈ ["head", "body"]) {id : NodeId} {path : List Node.Frame}
    (hcontent : b.content = .data)
    (hopens : ∀ attributes,
      Rests [partHandle id name, rootHandle] path (.element id ⟨.html, name⟩ attributes [] []) []
          (b.accept (.start { name, attributes })) ∧
        (b.accept (.start { name, attributes })).dropNewline = false)
    (hfinishes : ∀ {f' : Node.Frame} {done' : List Node} {b' : Builder},
      Rests [partHandle id name, rootHandle] path f' done' b' →
      P (done ++ [f'.branch done']) (b'.accept (.finish name)))
    {n : Node} (hn : n.nestsAs name = true) (hs : n.written? {} = some s) (r : Text) :
    ReadsBack P done b [n] s r := by
  cases n with
  | element id' name' attributes cs =>
    simp only [Node.nestsAs, Bool.and_eq_true, beq_iff_eq, decide_eq_true_eq] at hn
    obtain ⟨⟨rfl, hattributes⟩, hnests⟩ := hn
    have hall : ∀ n ∈ ["head", "body"], ElementName.IsWritable ⟨.html, n⟩ ∧ n ≠ "template" ∧
        ElementName.isVoid ⟨.html, n⟩ = false ∧ ElementName.hasRawText ⟨.html, n⟩ = false ∧
        Setting.of [⟨.html, n⟩, ⟨.html, "html"⟩] ∉ Setting.inTables := by decide
    obtain ⟨hwritable, htemplate, hvoid, hraw, houtside⟩ := hall _ hname
    obtain ⟨start, contents, hstart, hcontents, rfl⟩ := Node.written?_html rfl hs
    rw [hvoid, hraw] at hcontents
    obtain ⟨hrests, hdrop⟩ := hopens attributes
    obtain ⟨cs', b', hcs, hready, -, -, hreads⟩ := comesBack_of_nestsAll cs
      (r := Markup.writeEnd ⟨.html, name⟩ ++ r) (.inl hrests) hnests hcontents (fun _ => rfl) rfl
      fun hd => absurd (hdrop.symm.trans hd) Bool.false_ne_true
    refine ⟨_, _, hcs.element htemplate hvoid, hfinishes (hready.rests_outside houtside), ?_⟩
    rw [hvoid, if_neg Bool.false_ne_true, List.append_assoc, List.append_assoc]
    exact (reads_start hcontent hwritable hattributes hstart _).trans
      (hreads.trans (reads_end hready.content hwritable r))
  | text | comment | document | doctype | placeholder => cases hn

/-- What may stand behind a head starts with a tag or a comment, unless it starts with spaces. -/
theorem head?_behindHead (hcs : Node.nestBehindHead cs = true)
    (htext : cs.head?.any Node.isText = false) (hs : Node.writtenAll? {} cs = some s) :
    ∃ s', s = '<' :: s' := by
  cases cs with
  | nil => cases hcs
  | cons n rest =>
    have hmarked : n.isMarked = true := by
      cases n with
      | element | comment => rfl
      | text t => cases htext
      | document | doctype | placeholder => cases hcs
    obtain ⟨first, others, hfirst, -, rfl⟩ := Node.writtenAll?_cons hs
    obtain ⟨s', rfl⟩ := List.head?_eq_some_iff.mp (Node.head?_written hmarked hfirst)
    exact ⟨s' ++ others, rfl⟩

theorem not_mem_of_isSpaces {t : Text} (h : isSpaces t = true) : '\x00' ∉ t := fun hmem =>
  absurd (List.all_eq_true.mp h _ hmem) (by decide)

/-- Construction is behind the head, and a text that is put in stays apart. -/
def BehindHead (before : List Node) (attributes : List Attribute) (done : List Node) (b : Builder) :
    Prop :=
  InRoot before attributes .afterHead done b ∧ done.getLast?.any Node.isText = false

/-- **What may stand behind a head comes back.** -/
theorem readsBack_behindHead (h : InRoot before attributes .afterHead done b)
    (hcs : Node.nestBehindHead cs = true)
    (hlast : cs.head?.any Node.isText = true → done.getLast?.any Node.isText = false)
    (hs : Node.writtenAll? {} cs = some s) (r : Text) :
    ReadsBack (BehindBody before attributes) done b cs s r := by
  induction cs generalizing done b s with
  | nil => cases hcs
  | cons n rest ih =>
    obtain ⟨first, others, hfirst, hothers, rfl⟩ := Node.writtenAll?_cons hs
    cases n with
    | text t =>
      simp only [Node.nestBehindHead, Bool.and_eq_true, decide_eq_true_eq, Bool.not_eq_true'] at hcs
      obtain ⟨⟨⟨hne, hspaces⟩, happart⟩, hrest⟩ := hcs
      obtain rfl := Option.some.inj hfirst
      obtain ⟨others, rfl⟩ := head?_behindHead hrest happart hothers
      have htext : ReadsBack (InRoot before attributes .afterHead) done b [.text t]
          (Markup.writeText t) ('<' :: others ++ r) := by
        have hput := h.accept_spaces hne hspaces
        rw [joined_of_not_isText (hlast rfl)] at hput
        refine ⟨[.text t], _, .text t, hput, ?_⟩
        exact reads_data h.content (by simp)
          (Token.readData_writeText hne (not_mem_of_isSpaces hspaces) _ (others ++ r))
      refine .trans htext fun h' => ih h' hrest (fun hhead => ?_) hothers
      rw [happart] at hhead
      cases hhead
    | comment c =>
      obtain ⟨hc, hrest⟩ := Bool.and_eq_true_iff.mp hcs
      obtain rfl := Option.some.inj hfirst
      have hcomment : ReadsBack (BehindHead before attributes) done b [.comment c] _ (others ++ r) :=
        readsBack_remark h.content hc ⟨h.accept_comment (by decide) c, by simp [Node.isText]⟩ _
      exact .trans hcomment fun h' => ih h'.1 hrest (fun _ => h'.2) hothers
    | element id name attributes' cs =>
      obtain ⟨hbody, hrest⟩ := Bool.and_eq_true_iff.mp hcs
      have hpart : ReadsBack (BehindBody before attributes) done b
          [.element id name attributes' cs] first (others ++ r) :=
        readsBack_part (by decide) h.content h.accept_body h.accept_finish_body hbody hfirst _
      exact .trans hpart fun h' =>
        readsBack_remarks (fun c h => ⟨h.content, h.accept_comment c⟩) hrest hothers h' r
    | document | doctype | placeholder => cases hcs

/-- **What may stand in the outermost element comes back.** -/
theorem readsBack_inRoot (h : InRoot before attributes .beforeHead done b)
    (hcs : Node.nestInRoot cs = true) (hs : Node.writtenAll? {} cs = some s) (r : Text) :
    ReadsBack (BehindBody before attributes) done b cs s r := by
  induction cs generalizing done b s with
  | nil => cases hcs
  | cons n rest ih =>
    obtain ⟨first, others, hfirst, hothers, rfl⟩ := Node.writtenAll?_cons hs
    cases n with
    | comment c =>
      obtain ⟨hc, hrest⟩ := Bool.and_eq_true_iff.mp hcs
      obtain rfl := Option.some.inj hfirst
      have hcomment : ReadsBack (InRoot before attributes .beforeHead) done b [.comment c] _
          (others ++ r) :=
        readsBack_remark h.content hc (h.accept_comment (by decide) c) _
      exact .trans hcomment fun h' => ih h' hrest hothers
    | element id name attributes' cs =>
      obtain ⟨hhead, hrest⟩ := Bool.and_eq_true_iff.mp hcs
      have hpart : ReadsBack (BehindHead before attributes) done b
          [.element id name attributes' cs] first (others ++ r) := by
        refine readsBack_part (by decide) h.content h.accept_head (fun {f' _ _} hrests => ?_) hhead
          hfirst _
        refine ⟨h.accept_finish_head hrests, ?_⟩
        cases f' <;> simp [Node.Frame.branch, Node.isText]
      exact .trans hpart fun h' =>
        readsBack_behindHead h'.1 hrest (fun _ => h'.2) hothers r
    | text | document | doctype | placeholder => cases hcs

end Root

/-! ### The document -/

section Document

variable {done cs : List Node} {b : Builder} {mode : Mode} {s : Text}

/-- The doctype of a page comes back. -/
theorem readsBack_doctype (h : BeforeRoot .initial done b) {name publicId systemId : Text}
    (hd : IsWritableDoctype name publicId systemId) (r : Text) :
    ReadsBack (BeforeRoot .beforeHtml) done b [.doctype name publicId systemId]
      (Markup.writeDoctype name publicId systemId) r := by
  obtain ⟨hne, hname, hidentifiers⟩ := hd
  obtain ⟨hpublic, hpublicQuote⟩ := hidentifiers publicId (by simp)
  obtain ⟨hsystem, hsystemQuote⟩ := hidentifiers systemId (by simp)
  obtain ⟨publicId', systemId', damaged, hread, hiff⟩ :=
    Token.readData_writeDoctype hname hne hpublic hsystem b.takesSections r
  obtain ⟨hpublicId, hsystemId⟩ := hiff.mpr ⟨hpublicQuote, hsystemQuote⟩
  have hdoctype := h.accept_doctype ⟨some name, publicId', systemId', damaged⟩
  rw [Option.getD_some, hpublicId, hsystemId] at hdoctype
  have hwritten : Markup.writeDoctype name publicId systemId ++ r ≠ [] := by
    rw [Doctype.writeDoctype_append]
    exact List.append_ne_nil_of_left_ne_nil (by decide) _
  exact ⟨[.doctype name publicId systemId], _, rfl, hdoctype, reads_data h.content hwritten hread⟩

/-- The outermost element of a page comes back. -/
theorem readsBack_root (h : BeforeRoot mode done b) {id : NodeId} {attributes : List Attribute}
    (hattributes : AreWritable attributes) (hcs : Node.nestInRoot cs = true)
    (hs : (Node.element id ⟨.html, "html"⟩ attributes cs).written? {} = some s) (r : Text) :
    ReadsBack BehindRoot done b [.element id ⟨.html, "html"⟩ attributes cs] s r := by
  have hwritable : ElementName.IsWritable ⟨.html, "html"⟩ := by decide
  obtain ⟨start, contents, hstart, hcontents, rfl⟩ := Node.written?_html rfl hs
  have hroot := h.accept_html attributes
  obtain ⟨cs', b', hread, hbehind, hreads⟩ :=
    readsBack_inRoot hroot hcs hcontents (Markup.writeEnd ⟨.html, "html"⟩ ++ r)
  refine ⟨_, _, hread.element (by decide) (by rfl), hbehind.accept_finish, ?_⟩
  rw [List.append_assoc, List.append_assoc]
  exact (reads_start h.content hwritable hattributes hstart _).trans
    (hreads.trans (reads_end hbehind.content hwritable r))

/-- **A page comes back**, from where nothing has been opened. -/
theorem readsBack_page (h : BeforeRoot mode done b) (hcs : Node.isPage mode cs = true)
    (hs : Node.writtenAll? {} cs = some s) (r : Text) : ReadsBack BehindRoot done b cs s r := by
  induction cs generalizing done b mode s with
  | nil => cases hcs
  | cons n rest ih =>
    obtain ⟨first, others, hfirst, hothers, rfl⟩ := Node.writtenAll?_cons hs
    cases n with
    | comment c =>
      obtain ⟨hc, hrest⟩ := Bool.and_eq_true_iff.mp hcs
      obtain rfl := Option.some.inj hfirst
      have hcomment : ReadsBack (BeforeRoot mode) done b [.comment c] _ (others ++ r) :=
        readsBack_remark h.content hc (h.accept_comment c) _
      exact .trans hcomment fun h' => ih h' hrest hothers
    | doctype name publicId systemId =>
      simp only [Node.isPage, Bool.and_eq_true, beq_iff_eq, decide_eq_true_eq] at hcs
      obtain ⟨⟨rfl, hd⟩, hrest⟩ := hcs
      obtain rfl := Option.some.inj hfirst
      exact .trans (readsBack_doctype h hd _) fun h' => ih h' hrest hothers
    | element id name attributes cs =>
      simp only [Node.isPage, Bool.and_eq_true, beq_iff_eq, decide_eq_true_eq] at hcs
      obtain ⟨⟨⟨rfl, hattributes⟩, hinside⟩, hrest⟩ := hcs
      exact .trans (readsBack_root h hattributes hinside hfirst _) fun h' =>
        readsBack_remarks (fun c h => ⟨h.content, h.accept_comment c⟩) hrest hothers h' r
    | text | document | placeholder => cases hcs

/-! ### The whole text -/

/-- The markup of a page holds the end tag of the outermost element. -/
theorem not_isFragment_of_isPage (hcs : Node.isPage mode cs = true)
    (hs : Node.writtenAll? {} cs = some s) : Fragment.isFragment s = false := by
  have hbehind {first others : Text} (h : Fragment.isFragment others = false) :
      Fragment.isFragment (first ++ others) = false := by
    obtain ⟨before, r, rfl, hmarker⟩ := (Fragment.isFragment_eq_false_iff others).mp h
    exact (Fragment.isFragment_eq_false_iff _).mpr
      ⟨first ++ before, r, (List.append_assoc _ _ _).symm, hmarker⟩
  induction cs generalizing mode s with
  | nil => cases hcs
  | cons n rest ih =>
    obtain ⟨first, others, hfirst, hothers, rfl⟩ := Node.writtenAll?_cons hs
    cases n with
    | comment c => exact hbehind (ih (Bool.and_eq_true_iff.mp hcs).2 hothers)
    | doctype name publicId systemId => exact hbehind (ih (Bool.and_eq_true_iff.mp hcs).2 hothers)
    | element id name attributes cs =>
      simp only [Node.isPage, Bool.and_eq_true, beq_iff_eq] at hcs
      obtain ⟨⟨⟨rfl, -⟩, -⟩, -⟩ := hcs
      obtain ⟨start, contents, -, -, rfl⟩ := Node.written?_html rfl hfirst
      rw [List.append_assoc]
      refine hbehind ((Fragment.isFragment_eq_false_iff _).mpr ⟨[], _, rfl, ?_⟩)
      exact (Fragment.startsMarker_iff _).mpr ⟨"</html>".toList, others, rfl, .inl (by decide)⟩
    | text | document | placeholder => cases hcs

/-- What is written for a page starts with markup. -/
theorem head?_page (hcs : Node.isPage mode cs = true) (hs : Node.writtenAll? {} cs = some s) :
    s.head? = some '<' := by
  cases cs with
  | nil => cases hcs
  | cons n rest =>
    obtain ⟨first, others, hfirst, -, rfl⟩ := Node.writtenAll?_cons hs
    have hhead : first.head? = some '<' := by
      cases n with
      | element id name attributes cs =>
        simp only [Node.isPage, Bool.and_eq_true, beq_iff_eq] at hcs
        obtain ⟨⟨⟨rfl, -⟩, -⟩, -⟩ := hcs
        exact Node.head?_written (by rfl) hfirst
      | comment c => exact Node.head?_written (by rfl) hfirst
      | doctype name publicId systemId =>
        obtain rfl := Option.some.inj hfirst
        rfl
      | text | document | placeholder => cases hcs
    obtain ⟨r, rfl⟩ := List.head?_eq_some_iff.mp hhead
    rfl

/-- **A page that nests comes back** from its markup. -/
theorem parse_of_isPage (hcs : Node.isPage .initial cs = true) (hs : Node.writtenAll? {} cs = some s)
    (hreturn : '\r' ∉ s) :
    ∃ cs', Node.ReadFor cs cs' ∧ parse s = .ok (.document 0 (Node.tidyAll cs')) := by
  obtain ⟨cs', b, hread, hbehind, hreads⟩ := readsBack_page .start hcs hs []
  have hprepared : prepared s = s := by
    rw [prepared, unifyNewlines_eq hreturn, Token.dropByteOrderMark_eq]
    rw [head?_page hcs hs]
    decide
  rw [List.append_nil, ← hprepared] at hreads
  have hconstruct : construct s = b := (construct_of_reads hreads).trans hbehind.accept_eof
  refine ⟨cs', hread, ?_⟩
  rw [parse, if_neg (by rw [not_isFragment_of_isPage hcs hs]; decide), tree, hconstruct]
  simp only [hbehind.failed, hbehind.root_eq]
  rfl

end Document

end TerseMarkup.Html
