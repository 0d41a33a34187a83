import TerseMarkup.Proofs.Assignment
import TerseMarkup.Proofs.Html.Exchange
import TerseMarkup.Shortener.Document

/-! Shortening a tree is one exchange.

The table changes with every name that is met, in two traversals one after the other. Still there is
one answer for each name, whenever and wherever it is met: the one that the last table gives. -/
namespace TerseMarkup

namespace Html.Node

/-- The tree with all its names exchanged. -/
def exchange (codes : Codes) (root : Node) : Node :=
  (root.exchangeStyles codes).exchangeElements codes

/-- All names of a tree: those in its style elements, then those in the attributes of the elements
that are left. -/
def mentions (codes : Codes) (root : Node) : List Mention :=
  root.styleMentions codes ++ (root.exchangeStyles codes).elementMentions

variable {σ : Type}

/-- Renaming the style elements and then the attributes. -/
theorem follows_rename {f : Renaming σ} {Before : σ → Prop} {codes : Codes}
    (h : f.Foretells Before codes) (root : Node) :
    f.Follows Before (do (← root.renameStyles f).renameElements f) (root.exchange codes)
      (root.mentions codes) :=
  (follows_renameStyles h root).bind fun styled => follows_renameElements h styled

/-- Renaming with answers that do not depend on the state is the exchange itself. -/
theorem rename_pure (codes : Codes) (root : Node) (st : σ) :
    let f : Renaming σ := fun k name => pure (codes k name)
    ((do (← root.renameStyles f).renameElements f : StateM σ Node).run st).1 =
      root.exchange codes :=
  congrArg Prod.fst (follows_rename (Renaming.foretells_pure codes) root st trivial).2

end Html.Node

namespace Shortener

/-- **Shortening a tree exchanges every name for what the last table says of it.** The names of that
table are the ones known at first and, behind them, the new ones of the tree in the order in which
they are met; the entries known at first are in it unchanged. -/
theorem shortenTree_eq_exchange (s : Shortener) (root : Html.Node) (start : Table) :
    let (tree, last) := (s.shortenTree root).run start
    tree = root.exchange (s.lookup last) ∧
      (∀ k, last.names k =
        start.names k ++ s.newNames k (start.names k) (root.mentions (s.lookup last))) ∧
      ∀ k, start.entries k <+: last.entries k := by
  obtain ⟨tree, last, hresult⟩ :
      ∃ tree last, (s.shortenTree root).run start = (tree, last) := ⟨_, _, rfl⟩
  have hfollows : s.assign.Follows (·.GrowsTo last) (s.shortenTree root) _ _ :=
    Html.Node.follows_rename (foretells_lookup last) root
  have hend : ((s.shortenTree root).run start).2.GrowsTo last := by
    rw [hresult]
    exact .refl last
  obtain ⟨hgrows, hrun⟩ := hfollows start hend
  rw [hresult] at hrun ⊢
  obtain ⟨htree, hlast⟩ := Prod.mk.inj hrun
  refine ⟨htree, fun k => ?_, hgrows⟩
  rw [← names_assignAll]
  exact congrArg (Table.names · k) hlast

end Shortener
end TerseMarkup
