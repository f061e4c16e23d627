import RegexPattern.Charset
import RegexPattern.Reader.Literal

/-!
Reading charsets. Inside brackets every character but the closing bracket stands for itself, and
any character may be escaped. A dash makes a range unless the set closes, or the pattern ends,
right after it; such a dash is a character of the set.
-/

namespace RegexPattern.Reader

def readMember : Text → Reading Char
  | [] => .error ⟨.unterminatedCharset, []⟩
  | '\\' :: c :: rest => .ok (c, rest)
  | ['\\'] => .error ⟨.danglingEscape, ['\\']⟩
  | c :: rest => .ok (c, rest)

theorem length_readMember {text rest : Text} {c : Char} (read : readMember text = .ok (c, rest)) :
    rest.length < text.length := by
  unfold readMember at read
  split at read
  · simp at read
  · simp only [Except.ok.injEq, Prod.mk.injEq] at read
    rw [← read.2, List.length_cons, List.length_cons]
    omega
  · simp at read
  · simp only [Except.ok.injEq, Prod.mk.injEq] at read
    rw [← read.2, List.length_cons]
    omega

def startsRangeEnd : Text → Bool
  | '-' :: c :: _ => c ≠ ']'
  | _ => false

/-- One element of a charset. A range that is out of order is reported where it starts. -/
def readElement (text : Text) : Reading Element :=
  match readMember text with
  | .error fault => .error fault
  | .ok (first, rest) =>
    if startsRangeEnd rest then
      match readMember rest.tail with
      | .error fault => .error fault
      | .ok (last, after) =>
        match CharRange.ofEnds first last with
        | .error disorder => .error ⟨.disorder disorder, text⟩
        | .ok range => .ok (.range range, after)
    else .ok (.char first, rest)

theorem length_readElement {text rest : Text} {e : Element}
    (read : readElement text = .ok (e, rest)) : rest.length < text.length := by
  unfold readElement at read
  split at read
  · simp at read
  · next first after member =>
    have shorter := length_readMember member
    split at read
    · split at read
      · simp at read
      · next last after' member' =>
        have shorter' := length_readMember member'
        split at read
        · simp at read
        · simp only [Except.ok.injEq, Prod.mk.injEq] at read
          rw [← read.2]
          simp only [List.length_tail] at shorter'
          omega
    · simp_all

def readElements (text : Text) : Reading ElementSet :=
  match text with
  | [] => .error ⟨.unterminatedCharset, []⟩
  | ']' :: rest => .ok (.empty, rest)
  | c :: rest =>
    match _ : readElement (c :: rest) with
    | .error fault => .error fault
    | .ok (e, after) => (readElements after).map fun (set, after) => (set.insert e, after)
termination_by text.length
decreasing_by exact length_readElement ‹_›

theorem length_readElements {text rest : Text} {set : ElementSet}
    (read : readElements text = .ok (set, rest)) : rest.length < text.length := by
  fun_induction readElements text generalizing set with
  | case1 => simp at read
  | case2 => simp_all
  | case3 => simp at read
  | case4 c text _ e after element ih =>
    obtain ⟨⟨set', rest'⟩, read', same⟩ := map_eq_ok.1 read
    cases same
    have shorter := length_readElement element
    have later := ih read'
    omega

def readCharset : Text → Reading Charset
  | '^' :: rest => (readElements rest).map fun (set, after) => (⟨true, set⟩, after)
  | text => (readElements text).map fun (set, after) => (⟨false, set⟩, after)

theorem length_readCharset {text rest : Text} {set : Charset}
    (read : readCharset text = .ok (set, rest)) : rest.length ≤ text.length := by
  unfold readCharset at read
  split at read
  · obtain ⟨⟨set', rest'⟩, read', same⟩ := map_eq_ok.1 read
    have later := length_readElements read'
    cases same
    rw [List.length_cons]
    omega
  · obtain ⟨⟨set', rest'⟩, read', same⟩ := map_eq_ok.1 read
    have later := length_readElements read'
    cases same
    omega

end RegexPattern.Reader
