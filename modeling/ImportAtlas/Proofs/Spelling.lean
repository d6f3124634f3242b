import ImportAtlas.Source.Grammar.Expression
import ImportAtlas.Trim
import Mathlib.Data.List.Infix
import Mathlib.Data.List.TakeWhile

/-!
# Proofs/Spelling — how an expression is spelled in its text

Between two tokens stand white space and comments (`IsGap`), and an expression may be enclosed in any
number of parentheses (`Enclosed`).  A form of the tree knows where its parts stand in the text:
`Form.Covers` says that its spans cover exactly these parts.
-/

namespace ImportAtlas

/-! ## White space at the ends -/

/-- **A text without white space at its ends.** -/
structure IsTight (text : List Char) : Prop where
  head : text.head?.any isWhiteSpace = false
  last : text.getLast?.any isWhiteSpace = false

variable {text : List Char}

theorem trim_isInfix (text : List Char) : trim text <:+: text := by
  rw [trim]
  refine List.IsInfix.trans ?_ (List.dropWhile_suffix isWhiteSpace).isInfix
  rw [← List.reverse_infix, List.reverse_reverse]
  exact (List.dropWhile_suffix isWhiteSpace).isInfix

theorem any_head?_dropWhile (text : List Char) :
    (text.dropWhile isWhiteSpace).head?.any isWhiteSpace = false := by
  have hhead := List.head?_dropWhile_not isWhiteSpace text
  cases h : (text.dropWhile isWhiteSpace).head? with
  | none => rfl
  | some c => simpa [h] using hhead

theorem dropWhile_eq_self (h : text.head?.any isWhiteSpace = false) :
    text.dropWhile isWhiteSpace = text := by
  cases text with
  | nil => rfl
  | cons c r => exact List.dropWhile_cons_of_neg (by simpa using h)

theorem isTight_trim (text : List Char) : IsTight (trim text) where
  head := by
    have hprefix : trim text <+: text.dropWhile isWhiteSpace := by
      rw [trim, ← List.reverse_suffix, List.reverse_reverse]
      exact List.dropWhile_suffix isWhiteSpace
    obtain ⟨tail, htail⟩ := hprefix
    have hhead := any_head?_dropWhile text
    cases htrim : trim text with
    | nil => rfl
    | cons c r =>
      rw [← htail, htrim] at hhead
      exact hhead
  last := by
    rw [trim, List.getLast?_reverse]
    exact any_head?_dropWhile _

theorem IsTight.trim_eq (h : IsTight text) : trim text = text := by
  rw [trim, dropWhile_eq_self h.head, dropWhile_eq_self (List.head?_reverse ▸ h.last),
    List.reverse_reverse]

namespace Source

/-! ## Between tokens -/

/-- **What may stand between two tokens**: white space and comments. -/
inductive IsGap : List Char → Prop
  | nil : IsGap []
  | blank {c : Char} {text : List Char} (hc : isLineEnd c = true ∨ isBlank c = true)
    (h : IsGap text) : IsGap (c :: text)
  | lineComment {body text : List Char} {c : Char} (hbody : ∀ d ∈ body, isLineEnd d = false)
    (hc : isLineEnd c = true) (h : IsGap text) : IsGap ('/' :: '/' :: (body ++ c :: text))
  | blockComment {body text : List Char} (hbody : ¬ ['*', '/'] <:+: body) (h : IsGap text) :
    IsGap ('/' :: '*' :: (body ++ '*' :: '/' :: text))

/-- **A text in `n` pairs of parentheses**, with white space and comments between them. -/
inductive Enclosed (inner : List Char) : Nat → List Char → Prop
  | bare : Enclosed inner 0 inner
  | paren {n : Nat} {before text after : List Char} (hbefore : IsGap before) (hafter : IsGap after)
    (h : Enclosed inner n text) : Enclosed inner (n + 1) ('(' :: (before ++ text ++ after ++ [')']))

/-- **The text of an assignment** to a target, which may stand in parentheses of its own. -/
def IsAssignment (target text : List Char) : Prop :=
  ∃ n left before operator after value, Enclosed target n left ∧ IsGap before ∧
    operator ∈ Rule.assignmentMarks ∧ IsGap after ∧ value ≠ [] ∧
    text = left ++ before ++ operator.toList ++ after ++ value

/-! ## Forms -/

/-- **The spans of a form cover exactly the text of its parts**, where the expression stands at the
given span. -/
def Form.Covers (text : List Char) : Form → Span → Prop
  | .paren inside inner, span =>
    (∃ before after, IsGap before ∧ IsGap after ∧
      span.cut text = '(' :: (before ++ inside.cut text ++ after ++ [')'])) ∧ inner.Covers text inside
  | .assignment target _, span =>
    IsTight (target.cut text) ∧ IsAssignment (target.cut text) (span.cut text)
  | _, _ => True

/-- An expression in parentheses, given what stands inside each pair, from the outermost one. -/
def Form.enclosed (insides : List Span) (inner : Form) : Form :=
  insides.foldr .paren inner

/-- An assignment is found in its parentheses, however many there are. -/
theorem Form.Covers.exists_enclosed {insides : List Span} {target place : Span} {plain : Bool}
    (h : (Form.enclosed insides (.assignment target plain)).Covers text place) :
    IsTight (target.cut text) ∧ ∃ assignment, Enclosed assignment insides.length (place.cut text) ∧
      IsAssignment (target.cut text) assignment := by
  induction insides generalizing place with
  | nil => exact ⟨h.1, _, .bare, h.2⟩
  | cons inside insides ih =>
    obtain ⟨⟨before, after, hbefore, hafter, hcut⟩, hinner⟩ := h
    obtain ⟨htight, assignment, henclosed, hassignment⟩ := ih hinner
    exact ⟨htight, assignment, hcut ▸ .paren hbefore hafter henclosed, hassignment⟩

deriving instance DecidableEq for DefaultValue

/-- Where what is exported stands. -/
def DefaultValue.span : DefaultValue → Span
  | .declaration span | .expression span _ => span

/-- **The spans of a default export cover exactly the text of its parts.** -/
structure DefaultValue.Covers (text : List Char) (v : DefaultValue) : Prop where
  isTight : IsTight (v.span.cut text)
  form : ∀ {span form}, v = .expression span form → form.Covers text span

end Source

end ImportAtlas
