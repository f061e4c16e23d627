import RegexPattern.Proofs.Escape

/-!
Escapes read back. A text is determined by what is written for it, and in double quotes what is
written also shows where it ends: at the first double quote that no backslash takes with it.
-/

namespace RegexPattern

/-- What a backslash and the character behind it stand for. -/
def unescapeChar : Char → Char
  | 'n' => '\n'
  | 't' => '\t'
  | 'r' => '\r'
  | 'b' => '\x08'
  | '0' => '\x00'
  | c => c

def unescape : Text → Text
  | '\\' :: c :: rest => unescapeChar c :: unescape rest
  | c :: rest => c :: unescape rest
  | [] => []

/-- The text in front of the first double quote outside an escape, and the text behind it. -/
def scanQuoted : Text → Option (Text × Text)
  | '\\' :: c :: rest => (scanQuoted rest).map fun (inside, after) => ('\\' :: c :: inside, after)
  | '"' :: rest => some ([], rest)
  | c :: rest => (scanQuoted rest).map fun (inside, after) => (c :: inside, after)
  | [] => none

/-- A character is written as itself, which is then neither the backslash nor the mark of a quotation
around it, or as the escape that stands for it. -/
theorem escapeChar_cases (quoting : Bool) (c : Char) :
    (escapeChar quoting c = [c] ∧ c ≠ '\\' ∧ (quoting → c ≠ '"')) ∨
      ∃ d, escapeChar quoting c = ['\\', d] ∧ unescapeChar d = c := by
  unfold escapeChar
  split
  · exact .inr ⟨'\\', rfl, rfl⟩
  · exact .inr ⟨'n', rfl, rfl⟩
  · exact .inr ⟨'t', rfl, rfl⟩
  · exact .inr ⟨'r', rfl, rfl⟩
  · exact .inr ⟨'b', rfl, rfl⟩
  · exact .inr ⟨'0', rfl, rfl⟩
  · cases quoting with
    | false => exact .inl ⟨rfl, by decide, nofun⟩
    | true => exact .inr ⟨'"', rfl, rfl⟩
  · next noSlash _ _ _ _ _ noQuote => exact .inl ⟨rfl, noSlash, fun _ => noQuote⟩

theorem unescape_cons {c : Char} (noSlash : c ≠ '\\') (rest : Text) :
    unescape (c :: rest) = c :: unescape rest := by
  rw [unescape]
  rintro d more rfl
  exact absurd rfl noSlash

theorem scanQuoted_cons {c : Char} (noSlash : c ≠ '\\') (noQuote : c ≠ '"') (rest : Text) :
    scanQuoted (c :: rest) = (scanQuoted rest).map fun (inside, after) => (c :: inside, after) := by
  rw [scanQuoted]
  · rintro d more rfl
    exact absurd rfl noSlash
  · exact noQuote

theorem unescape_escape_append (quoting : Bool) (text rest : Text) :
    unescape (escape quoting text ++ rest) = text ++ unescape rest := by
  induction text with
  | nil => rfl
  | cons c text ih =>
    rw [escape_cons, List.append_assoc, List.cons_append, ← ih]
    rcases escapeChar_cases quoting c with ⟨written, noSlash, -⟩ | ⟨d, written, stands⟩
    · rw [written, List.singleton_append, unescape_cons noSlash]
    · rw [written, List.cons_append, List.cons_append, List.nil_append, unescape, stands]

theorem unescape_escape (quoting : Bool) (text : Text) : unescape (escape quoting text) = text := by
  simpa [unescape] using unescape_escape_append quoting text []

theorem escape_injective (quoting : Bool) : Function.Injective (escape quoting) :=
  Function.LeftInverse.injective (unescape_escape quoting)

theorem escapeChar_append_inj {quoting : Bool} {c d : Char} {rest rest' : Text}
    (same : escapeChar quoting c ++ rest = escapeChar quoting d ++ rest') : c = d ∧ rest = rest' := by
  rcases escapeChar_cases quoting c with ⟨written, noSlash, -⟩ | ⟨c', written, stands⟩ <;>
    rcases escapeChar_cases quoting d with ⟨written', noSlash', -⟩ | ⟨d', written', stands'⟩ <;>
    simp only [written, written', List.cons_append, List.nil_append, List.cons.injEq] at same
  · exact same
  · exact absurd same.1 noSlash
  · exact absurd same.1.symm noSlash'
  · exact ⟨by rw [← stands, ← stands', same.2.1], same.2.2⟩

theorem scanQuoted_escape (text rest : Text) :
    scanQuoted (escape true text ++ '"' :: rest) = some (escape true text, rest) := by
  induction text with
  | nil => rfl
  | cons c text ih =>
    rw [escape_cons, List.append_assoc]
    rcases escapeChar_cases true c with ⟨written, noSlash, noQuote⟩ | ⟨d, written, -⟩
    · rw [written, List.singleton_append, scanQuoted_cons noSlash (noQuote rfl), ih]
      rfl
    · rw [written, List.cons_append, List.cons_append, List.nil_append, scanQuoted, ih]
      rfl

theorem escape_quote_append_inj {text text' rest rest' : Text}
    (same : escape true text ++ '"' :: rest = escape true text' ++ '"' :: rest') :
    text = text' ∧ rest = rest' := by
  have scanned := congrArg scanQuoted same
  rw [scanQuoted_escape, scanQuoted_escape, Option.some.injEq, Prod.mk.injEq] at scanned
  exact ⟨escape_injective true scanned.1, scanned.2⟩

/-- No text breaks out of the double quotes that it is written in. What is written has no control characters,
a scan stops at the quote behind it whatever follows, and the text reads back from what was scanned. It reads
back from what is written without quotes as well, so either way of writing tells all texts apart. -/
theorem escape_in_quotes (text rest : Text) :
    (∀ c ∈ escape true text, ¬ isControl c) ∧
      scanQuoted (escape true text ++ '"' :: rest) = some (escape true text, rest) ∧
      (∀ quoting, unescape (escape quoting text) = text) ∧
      ∀ quoting other, escape quoting text = escape quoting other ↔ text = other := by
  refine ⟨visible_escape true text, scanQuoted_escape text rest, fun quoting => ?_, fun quoting other => ?_⟩
  · exact unescape_escape quoting text
  · exact (escape_injective quoting).eq_iff

end RegexPattern
