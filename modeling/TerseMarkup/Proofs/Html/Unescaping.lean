import TerseMarkup.Proofs.Html.Bytes
import TerseMarkup.Proofs.Html.Rereading

/-! Escaped text as a reader has it.

A value is read up to its last quote and a text up to the next mark, and both as they were before
they were escaped, whatever they look like (`escaped_readsBack`). Readers exchange carriage returns
and NUL characters, so a text with one of those is none that has been read. A value stands in the
quotes that it has fewer of, and each of them costs four bytes more than it has (`length_quoted`), so
the other quotes would never be shorter. -/
namespace TerseMarkup.Html

namespace Markup
open Text

/-! ### Quotes -/

/-- A value between quotes of the kind `q`. -/
def quoted (q : Quote) (value : Text) : Text :=
  q.char :: (value.flatMap (writeValueChar q) ++ [q.char])

theorem writeValue_eq (value : Text) : writeValue value = quoted (Quote.forValue value) value := rfl

/-- What a character of a value is written as where no quote stands around it. -/
def unquotedChar (c : Char) : Text := escapeChar [('&', "&amp;".toList)] c

theorem Quote.length_reference (q : Quote) : q.reference.bytes.length = 5 := by
  cases q <;> decide +kernel

/-- A quote is a reference inside its own kind, which has four bytes more. -/
theorem length_writeValueChar (q : Quote) (c : Char) :
    (bytes (writeValueChar q c)).length =
      (bytes (unquotedChar c)).length + if c = q.char then 4 else 0 := by
  have hspace : noBreakSpace ≠ q.char := by cases q <;> decide
  have hamp : '&' ≠ q.char := by cases q <;> decide
  rw [writeValueChar, unquotedChar, escapeChar, referenceFor, referenceFor]
  by_cases hc : c = noBreakSpace
  · rw [if_pos hc, if_pos hc, if_neg (hc ▸ hspace), Nat.add_zero]
  rw [if_neg hc, if_neg hc]
  by_cases hc : c = '&'
  · rw [if_pos hc, if_pos hc, if_neg (hc ▸ hamp), Nat.add_zero]
  rw [if_neg hc, if_neg hc]
  by_cases hc : c = q.char
  · rw [if_pos hc, if_pos hc, q.length_reference, hc, bytes_ascii q.char_ascii]
    rfl
  · rw [if_neg hc, if_neg hc, Nat.add_zero]

/-- The two quotes, and four bytes more for each quote of their kind in the value. -/
theorem length_quoted (q : Quote) (value : Text) :
    (quoted q value).bytes.length =
      (bytes (value.flatMap unquotedChar)).length + 4 * value.count q.char + 2 := by
  have hinside : (bytes (value.flatMap (writeValueChar q))).length =
      (bytes (value.flatMap unquotedChar)).length + 4 * value.count q.char := by
    induction value with
    | nil => rfl
    | cons c value ih =>
      rw [List.flatMap_cons, List.flatMap_cons, bytes_append, bytes_append, List.length_append,
        List.length_append, ih, length_writeValueChar, List.count_cons]
      simp only [beq_iff_eq]
      split <;> omega
  rw [quoted, bytes_cons_ascii q.char_ascii, bytes_append, bytes_ascii q.char_ascii,
    List.length_cons, List.length_append, List.length_singleton, hinside]

theorem Quote.count_forValue_le (q : Quote) (value : Text) :
    value.count (forValue value).char ≤ value.count q.char := by
  rw [forValue]
  split <;> cases q <;> simp only [Quote.char] <;> omega

/-- **No other quotes make a value shorter.** -/
theorem length_writeValue_le (q : Quote) (value : Text) :
    (writeValue value).bytes.length ≤ (quoted q value).bytes.length := by
  have hcount := q.count_forValue_le value
  rw [writeValue_eq, length_quoted, length_quoted]
  omega

/-! ### Carriage returns -/

/-- No reference has a carriage return in it. -/
theorem eq_of_return_mem_escapeChar {references : List (Char × Text)}
    (h : ∀ r ∈ references, '\r' ∉ r.2) {c : Char} (hc : '\r' ∈ escapeChar references c) :
    c = '\r' := by
  rw [escapeChar] at hc
  split at hc
  · exact absurd hc (by decide)
  · induction references with
    | nil => exact (List.mem_singleton.mp hc).symm
    | cons r rest ih =>
      obtain ⟨hr, hrest⟩ := List.forall_mem_cons.mp h
      rw [referenceFor] at hc
      split at hc
      · exact absurd hc hr
      · exact ih hrest hc

theorem return_not_mem_flatMap {references : List (Char × Text)} (h : ∀ r ∈ references, '\r' ∉ r.2)
    {t : Text} (ht : '\r' ∉ t) : '\r' ∉ t.flatMap (escapeChar references) := by
  intro hmem
  obtain ⟨c, hc, hreturn⟩ := List.mem_flatMap.mp hmem
  exact ht (eq_of_return_mem_escapeChar h hreturn ▸ hc)

theorem return_not_mem_writeText {t : Text} (ht : '\r' ∉ t) : '\r' ∉ writeText t := by
  have hreferences : ∀ r ∈ textReferences, '\r' ∉ r.2 := by decide
  exact return_not_mem_flatMap hreferences ht

theorem return_not_mem_writeValue {t : Text} (ht : '\r' ∉ t) : '\r' ∉ writeValue t := by
  have hreferences : ∀ q : Quote, ∀ r ∈ q.references, '\r' ∉ r.2 := by
    intro q
    cases q <;> decide
  have hquote : ∀ q : Quote, '\r' ≠ q.char := by
    intro q
    cases q <;> decide
  have hinside := return_not_mem_flatMap (hreferences (Quote.forValue t)) ht
  rw [writeValue_eq, quoted, List.mem_cons, List.mem_append, List.mem_singleton]
  rintro (h | h | h)
  · exact hquote _ h
  · exact hinside h
  · exact hquote _ h

end Markup

namespace Document
open Markup

/-- **What is escaped comes back.** A value is read up to its last quote and no further, a text up to
the next mark or the end, and neither loses or gains anything. Escaping goes byte by byte and comes
to the same as escaping the characters, and other quotes would not make the value shorter. -/
theorem escaped_readsBack {v : Text} (hnull : '\x00' ∉ v) (hreturn : '\r' ∉ v) :
    (∀ r, Tag.readValue? (unifyNewlines (writeValue v ++ r)) = some (v, unifyNewlines r)) ∧
      (v ≠ [] → ∀ sections r, (∀ c, r.head? = some c → c = '<') →
        Token.read .data sections (unifyNewlines (writeText v ++ r)) =
          ⟨[.text v], unifyNewlines r, .data⟩) ∧
      valueBytes v.bytes = (writeValue v).bytes ∧
      escapeBytes textReferences v.bytes = (writeText v).bytes ∧
      ∀ q, (writeValue v).bytes.length ≤ (quoted q v).bytes.length := by
  refine ⟨fun r => ?_, fun hne sections r hr => ?_, valueBytes_bytes v, escapeBytes_text v,
    fun q => length_writeValue_le q v⟩
  · rw [unifyNewlines_append (return_not_mem_writeValue hreturn)]
    exact Tag.readValue?_writeValue hnull _
  · rw [unifyNewlines_append (return_not_mem_writeText hreturn)]
    refine Token.readData_writeText_append hne hnull (fun c hc => ?_) sections
    cases r with
    | nil => exact nomatch hc
    | cons d r =>
      obtain rfl := hr d rfl
      exact (Option.some.inj hc).symm

/-- What looks like references and tags, two kinds of quotes, and characters of two and four bytes,
one of them with the first byte of a no-break space. -/
theorem escaped_readsBack_mixed :
    let v : Text := "&amp;lt &copy=\"a\"'<p>\u00A0\u00BF😀".toList
    ('\x00' ∉ v ∧ '\r' ∉ v) ∧
      writeValue v = "'&amp;amp;lt &amp;copy=\"a\"&#39;<p>&nbsp;\u00BF😀'".toList ∧
      Tag.readValue? (unifyNewlines (writeValue v ++ ['>'])) = some (v, ['>']) ∧
      Token.read .data false (unifyNewlines (writeText v ++ "</p>".toList)) =
        ⟨[.text v], "</p>".toList, .data⟩ ∧
      valueBytes v.bytes = (writeValue v).bytes ∧
      (writeValue v).bytes.length ≤ (quoted .double v).bytes.length := by
  intro v
  have hnull : '\x00' ∉ v := by decide
  have hreturn : '\r' ∉ v := by decide
  obtain ⟨hvalue, htext, hbytes, -, hlength⟩ := escaped_readsBack hnull hreturn
  exact ⟨⟨hnull, hreturn⟩, by decide +kernel, hvalue ['>'],
    htext (by decide) false "</p>".toList fun _ h => (Option.some.inj h).symm, hbytes,
    hlength .double⟩

end Document
end TerseMarkup.Html
