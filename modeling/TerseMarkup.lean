import TerseMarkup.Main
import TerseMarkup.Shortener.Css
import TerseMarkup.Shortener.Document
import TerseMarkup.Proofs.Name.Encoding
import TerseMarkup.Proofs.Name.Minting
import TerseMarkup.Proofs.Text.Occurrence
import TerseMarkup.Proofs.Name.Growth
import TerseMarkup.Proofs.Assignment
import TerseMarkup.Proofs.Assignment.Origin
import TerseMarkup.Proofs.Assignment.Collision
import TerseMarkup.Proofs.Assignment.Exemption
import TerseMarkup.Proofs.Assignment.Pattern
import TerseMarkup.Proofs.Assignment.Repetition
import TerseMarkup.Proofs.History
import TerseMarkup.Proofs.Assignment.Salt
import TerseMarkup.Proofs.Css.Exchange
import TerseMarkup.Proofs.Css.Grammar
import TerseMarkup.Proofs.Css.Finding
import TerseMarkup.Proofs.Css.Rewriting
import TerseMarkup.Proofs.Html.Exchange
import TerseMarkup.Proofs.Shortening
import TerseMarkup.Proofs.Css.Source
import TerseMarkup.Proofs.Css.EndMark
import TerseMarkup.Proofs.Css.Enclosure
import TerseMarkup.Proofs.Shortening.Outline
import TerseMarkup.Proofs.Html.Wrapping
import TerseMarkup.Proofs.Html.Construction.Nested
import TerseMarkup.Proofs.Html.Construction.Nested.Setting
import TerseMarkup.Proofs.Html.Construction.Nested.Content
import TerseMarkup.Proofs.Html.Construction.Nested.Token
import TerseMarkup.Proofs.Html.Escape
import TerseMarkup.Proofs.Html.Markup
import TerseMarkup.Proofs.Html.Token.Written
import TerseMarkup.Proofs.Cli.Batch
import TerseMarkup.Proofs.Cli.Interleaving
import TerseMarkup.Proofs.Css.Completion
import TerseMarkup.Proofs.Css.Respelling
import TerseMarkup.Proofs.Html.Nesting
import TerseMarkup.Proofs.Html.Construction.Page
import TerseMarkup.Proofs.Html.Page
import TerseMarkup.Proofs.Html.Rereading
import TerseMarkup.Proofs.Html.Unescaping
import TerseMarkup.Proofs.Html.Fragment
import TerseMarkup.Proofs.Html.Tidying
import TerseMarkup.Proofs.Name.Listing
import TerseMarkup.Proofs.Assignment.Words
import TerseMarkup.Proofs.Shortening.Classes
import TerseMarkup.Proofs.Shortening.ClassTests
import TerseMarkup.Proofs.Html.Serialization
import TerseMarkup.Proofs.Html.Construction.Editing
import TerseMarkup.Proofs.Html.Token.Doctype
