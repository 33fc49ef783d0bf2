import Lox.Proofs.Grammar.Spelling
import Lox.Proofs.Number.Prefixed
import Lox.Proofs.Session.Joining
import Lox.Proofs.Syntax.Outline

/-!
# Prefix forms are read in one way only

Two expressions that are read from texts have the same prefix form only if they differ in
nothing but the lines of their tokens and the numbers of their names. The literals have to be
words: strings are written bare, and a number beyond all doubles is written like a name.
-/

namespace Lox

open Outline (IsWord staysInWord)

/-- Tokens of one kind and one lexeme stand for each other, and so do all numbers. -/
def Likeness.unlined : Likeness :=
  ⟨fun one other => one.kind = other.kind ∧ one.lexeme = other.lexeme, fun _ _ => True,
    And.left, And.right⟩

/-! ## Literals -/

/-- A literal that is one word in prefix form: no string, and a finite number. -/
def Literal.IsBare : Literal → Prop
  | .number value =>
      ∃ negative significand exponent,
        Number.content value = .finite negative significand exponent
  | .string _ => False
  | .nil | .bool _ => True

instance Literal.decidableIsBare : (value : Literal) → Decidable value.IsBare
  | .nil | .bool _ => .isTrue trivial
  | .string _ => .isFalse id
  | .number value =>
      match read : Number.content value with
      | .finite negative significand exponent => .isTrue ⟨negative, significand, exponent, read⟩
      | .notANumber | .infinite _ =>
          .isFalse fun ⟨_, _, _, finite⟩ => nomatch read.symm.trans finite

mutual

/-- The literals in an expression. -/
def Expr.literals : Expr → List Literal
  | .literal value => [value]
  | .grouping inner => inner.literals
  | .unary _ operand => operand.literals
  | .binary left _ right => left.literals ++ right.literals
  | .logical left _ right => left.literals ++ right.literals
  | .variable _ | .this _ | .super _ _ => []
  | .assign _ value => value.literals
  | .call callee _ arguments => callee.literals ++ Expr.listLiterals arguments
  | .get object _ => object.literals
  | .set object _ value => object.literals ++ value.literals

/-- The literals in several expressions. -/
def Expr.listLiterals : List Expr → List Literal
  | [] => []
  | first :: rest => first.literals ++ Expr.listLiterals rest

end

/-! ## Words -/

/-- Characters of names stand in words. -/
theorem staysInWord_of_name {character : Char}
    (name : character.isAlphanum = true ∨ character = '_') : staysInWord character = true := by
  by_contra ends
  simp only [staysInWord, Bool.and_eq_true, bne_iff_ne, ne_eq, not_and_or, not_not] at ends
  rcases ends with (rfl | rfl) | rfl <;> rcases name with no | no <;> cases no

theorem staysInWord_of_digit {character : Char} (digit : Segment.isDigit character = true) :
    staysInWord character = true := by
  rw [Segment.isDigit_eq] at digit
  exact staysInWord_of_name (.inl (apart_of_isDigit digit).2.2.2)

/-- The kinds of tokens that are words in prefix form. -/
def Token.Kind.isWord : Token.Kind → Bool
  | .mark symbol => symbol ≠ .leftParen && symbol ≠ .rightParen
  | .keyword _ | .identifier => true
  | _ => false

theorem IsLexeme.staysInWord {text : List Char} {kind : Token.Kind} (lexeme : IsLexeme text kind)
    (isWord : kind.isWord = true) : ∀ character ∈ text, staysInWord character = true := by
  intro character inside
  cases lexeme with
  | mark mark =>
      have stays : mark.spelling.all Outline.staysInWord = true := by
        cases mark <;> first | rfl | cases isWord
      exact List.all_eq_true.mp stays character inside
  | keyword keyword =>
      obtain ⟨letter, rest, spelling, starts, letters⟩ := keyword.starts
      rw [spelling] at inside
      have letter : character.isAlpha = true := by
        cases inside with
        | head => exact starts
        | tail _ later => exact letters character later
      exact staysInWord_of_name (.inl (isAlphanum_of_isAlpha letter))
  | identifier starts continues _ =>
      cases inside with
      | head => exact staysInWord_of_name (starts.imp_left isAlphanum_of_isAlpha)
      | tail _ later => exact staysInWord_of_name (continues character later)
  | whole _ _ => cases isWord
  | fraction _ _ _ _ => cases isWord
  | string _ => cases isWord

theorem Token.Fits.isWord {kinds : List Token.Kind} {token : Token} (fits : token.Fits kinds)
    (words : ∀ kind ∈ kinds, kind.isWord = true) : IsWord token.lexeme :=
  ⟨fits.lexeme.ne_nil, fits.lexeme.staysInWord (words _ fits.kind)⟩

namespace Number

variable {number : Float} {negative : Bool} {significand : Nat} {exponent : Int}

theorem isWord_prefixText (finite : content number = .finite negative significand exponent) :
    IsWord (prefixText number) := by
  obtain ⟨whole, places, text, digits, -⟩ := prefixText_reads finite
  constructor
  · simp [text, digits.nonempty]
  · intro character inside
    rw [text, List.mem_append, List.mem_append] at inside
    rcases inside with sign | front | fraction
    · cases negative with
      | true => obtain rfl := List.mem_singleton.mp sign; rfl
      | false => cases sign
    · exact staysInWord_of_digit (digits.whole character front)
    · unfold Numeral.pointed at fraction
      split at fraction
      · cases fraction
      · cases fraction with
        | head => rfl
        | tail _ place => exact staysInWord_of_digit (digits.places character place)

/-- A number starts with a digit or a minus sign, and so like no name. -/
theorem prefixText_head (finite : content number = .finite negative significand exponent) :
    ∃ first rest, (prefixText number).toList = first :: rest ∧
      Segment.startsName first = false := by
  obtain ⟨whole, places, text, digits, -⟩ := prefixText_reads finite
  rw [text]
  cases negative with
  | true => exact ⟨'-', _, rfl, rfl⟩
  | false =>
      obtain ⟨first, rest, rfl⟩ := List.exists_cons_of_ne_nil digits.nonempty
      have digit := digits.whole first (.head _)
      rw [Segment.isDigit_eq] at digit
      refine ⟨first, _, rfl, ?_⟩
      rw [Bool.eq_false_iff, ne_eq, Segment.startsName_iff]
      simp [apart_of_isDigit digit]

theorem prefixText_ne_spelling (finite : content number = .finite negative significand exponent)
    (keyword : Keyword) : (prefixText number).toList ≠ keyword.spelling := by
  obtain ⟨first, rest, text, apart⟩ := prefixText_head finite
  obtain ⟨letter, letters, spelling, starts, -⟩ := keyword.starts
  rw [text, spelling]
  intro same
  obtain ⟨rfl, -⟩ := List.cons.inj same
  rw [(Segment.startsName_iff first).mpr (.inl starts)] at apart
  cases apart

end Number

/-! ## Literals are known by their words -/

theorem Literal.isWord {value : Literal} (bare : value.IsBare) : IsWord value.prefixText := by
  cases value with
  | nil => decide
  | bool value => cases value <;> decide
  | number value =>
      obtain ⟨_, _, _, finite⟩ := bare
      exact Number.isWord_prefixText finite
  | string value => cases bare

/-- A literal that is no number is written as a keyword. -/
theorem Literal.spelling_or_number {value : Literal} (bare : value.IsBare) :
    (∃ keyword : Keyword, value.kind = .keyword keyword ∧
      value.prefixText.toList = keyword.spelling) ∨ ∃ number, value = .number number := by
  cases value with
  | nil => exact .inl ⟨.nil, rfl, rfl⟩
  | bool value =>
      cases value with
      | true => exact .inl ⟨.true, rfl, rfl⟩
      | false => exact .inl ⟨.false, rfl, rfl⟩
  | number value => exact .inr ⟨value, rfl⟩
  | string value => cases bare

theorem Literal.kind_injective {one other : Literal} (same : one.kind = other.kind) :
    one = other := by
  have found (value : Literal) : Grammar.literal? value.kind = some value := by
    cases value with
    | bool value => cases value <;> rfl
    | _ => rfl
  exact Option.some.inj (by rw [← found one, same, found other])

/-- Literals that are words are known by them. -/
theorem Literal.prefixText_injective {one other : Literal} (bare : one.IsBare)
    (bare' : other.IsBare) (same : one.prefixText = other.prefixText) : one = other := by
  rcases spelling_or_number bare with ⟨keyword, kind, text⟩ | ⟨number, rfl⟩ <;>
    rcases spelling_or_number bare' with ⟨keyword', kind', text'⟩ | ⟨number', rfl⟩
  · have spellings : keyword.spelling = keyword'.spelling := by rw [← text, same, text']
    have keywords := congrArg Keyword.ofSpelling? spellings
    rw [Keyword.ofSpelling?_spelling, Keyword.ofSpelling?_spelling] at keywords
    exact kind_injective (by rw [kind, kind', Option.some.inj keywords])
  · obtain ⟨_, _, _, finite⟩ := bare'
    rw [same] at text
    exact absurd text (Number.prefixText_ne_spelling finite keyword)
  · obtain ⟨_, _, _, finite⟩ := bare
    rw [← same] at text'
    exact absurd text' (Number.prefixText_ne_spelling finite keyword')
  · obtain ⟨_, _, _, finite⟩ := bare
    obtain ⟨_, _, _, finite'⟩ := bare'
    rw [Number.prefixText_injective finite finite' same]

/-! ## Outlines of what is read from a text -/

/-- The spelling of the tokens of a kind, if there is only one. -/
def Token.Kind.spelling? : Token.Kind → Option String
  | .mark symbol => some (String.ofList symbol.spelling)
  | .keyword word => some (String.ofList word.spelling)
  | _ => none

theorem Token.Fits.lexeme_mem {kinds : List Token.Kind} {token : Token} (fits : token.Fits kinds)
    (fixed : ∀ kind ∈ kinds, kind.spelling?.isSome = true) :
    token.lexeme ∈ kinds.filterMap Token.Kind.spelling? := by
  refine List.mem_filterMap.mpr ⟨token.kind, fits.kind, ?_⟩
  have fixed := fixed _ fits.kind
  have lexeme := fits.lexeme
  generalize spelled : token.lexeme.toList = text at lexeme
  have same : token.lexeme = String.ofList text := by rw [← spelled, String.ofList_toList]
  rw [same]
  generalize token.kind = kind at *
  cases lexeme with
  | mark | keyword => rfl
  | whole | fraction | string | identifier => cases fixed

mutual

/-- The outline of an expression that is read from a text is legible. -/
theorem Expr.legible_outline : (value : Expr) → value.Spelled →
    (∀ literal ∈ value.literals, literal.IsBare) → value.outline.Legible
  | .literal value, _, bare => by
      rw [outline, Outline.Legible]
      exact Literal.isWord (bare value (.head _))
  | .grouping inner, spelled, bare => by
      rw [Spelled] at spelled
      rw [literals] at bare
      exact ⟨by decide, legible_outline inner spelled bare, trivial⟩
  | .unary operator operand, spelled, bare => by
      rw [Spelled] at spelled
      rw [literals] at bare
      exact ⟨spelled.1.isWord (by decide), legible_outline operand spelled.2 bare, trivial⟩
  | .binary left operator right, spelled, bare => by
      rw [Spelled] at spelled
      rw [literals, List.forall_mem_append] at bare
      exact ⟨spelled.2.1.isWord (by decide), legible_outline left spelled.1 bare.1,
        legible_outline right spelled.2.2 bare.2, trivial⟩
  | .logical left operator right, spelled, bare => by
      rw [Spelled] at spelled
      rw [literals, List.forall_mem_append] at bare
      exact ⟨spelled.2.1.isWord (by decide), legible_outline left spelled.1 bare.1,
        legible_outline right spelled.2.2 bare.2, trivial⟩
  | .variable reference, spelled, _ => by
      rw [Spelled] at spelled
      exact spelled.isWord (by decide)
  | .assign reference value, spelled, bare => by
      rw [Spelled] at spelled
      rw [literals] at bare
      exact ⟨by decide, spelled.1.isWord (by decide),
        legible_outline value spelled.2 bare, trivial⟩
  | .call callee paren arguments, spelled, bare => by
      rw [Spelled] at spelled
      rw [literals, List.forall_mem_append] at bare
      exact ⟨by decide, legible_outline callee spelled.1 bare.1,
        legible_outlines arguments spelled.2.1 bare.2⟩
  | .get object name, spelled, bare => by
      rw [Spelled] at spelled
      rw [literals] at bare
      exact ⟨by decide, spelled.2.isWord (by decide),
        legible_outline object spelled.1 bare, trivial⟩
  | .set object name value, spelled, bare => by
      rw [Spelled] at spelled
      rw [literals, List.forall_mem_append] at bare
      have point : IsWord "." := by decide
      exact ⟨by decide, point, spelled.2.1.isWord (by decide),
        legible_outline object spelled.1 bare.1, legible_outline value spelled.2.2 bare.2, trivial⟩
  | .this _, _, _ => by
      rw [outline, Outline.Legible]
      decide
  | .super reference method, spelled, _ => by
      rw [Spelled] at spelled
      exact ⟨by decide, spelled.2.isWord (by decide), trivial⟩

theorem Expr.legible_outlines : (values : List Expr) → Expr.ListSpelled values →
    (∀ literal ∈ Expr.listLiterals values, literal.IsBare) →
    Outline.ListLegible (Expr.outlines values)
  | [], _, _ => trivial
  | first :: rest, spelled, bare => by
      rw [ListSpelled] at spelled
      rw [listLiterals, List.forall_mem_append] at bare
      exact ⟨legible_outline first spelled.1 bare.1, legible_outlines rest spelled.2 bare.2⟩

end

/-! ## The form of an expression shows in its outline -/

/-- The ways to build an expression. -/
inductive Expr.Form where
  | literal | grouping | unary | binary | logical | variable | assign | call | get | set | this
  | super
  deriving DecidableEq

/-- The way in which an expression is built. -/
def Expr.form : Expr → Expr.Form
  | .literal _ => .literal
  | .grouping _ => .grouping
  | .unary _ _ => .unary
  | .binary _ _ _ => .binary
  | .logical _ _ _ => .logical
  | .variable _ => .variable
  | .assign _ _ => .assign
  | .call _ _ _ => .call
  | .get _ _ => .get
  | .set _ _ _ => .set
  | .this _ => .this
  | .super _ _ => .super

/-- The way in which an expression with an outline is built. Words are told apart by their
first character, and heads that forms share by the number of their parts. -/
def Outline.form : Outline → Expr.Form
  | word letters =>
      if letters = "this" then .this
      else if letters.toList.head?.any Segment.startsName ∧
          Keyword.ofSpelling? letters.toList = none then .variable
      else .literal
  | node head parts =>
      if head = "group" then .grouping
      else if head = "call" then .call
      else if head = "super" then .super
      else if head = "." then .get
      else if head = "=" then if parts.length = 2 then .assign else .set
      else if head = "or" ∨ head = "and" then .logical
      else if parts.length = 1 then .unary
      else .binary

theorem Literal.form_outline {value : Literal} (bare : value.IsBare) :
    (Outline.word value.prefixText).form = .literal := by
  cases value with
  | nil => decide
  | bool value => cases value <;> decide
  | number value =>
      obtain ⟨_, _, _, finite⟩ := bare
      obtain ⟨first, rest, text, apart⟩ := Number.prefixText_head finite
      have free : Number.prefixText value ≠ "this" := fun same =>
        Number.prefixText_ne_spelling finite .this (congrArg String.toList same)
      simp [Outline.form, prefixText, free, text, apart]
  | string value => cases bare

theorem Token.Fits.form_word {name : Token} (fits : name.Fits [.identifier]) :
    (Outline.word name.lexeme).form = .variable := by
  have lexeme := fits.lexeme
  rw [List.mem_singleton.mp fits.kind] at lexeme
  generalize spelled : name.lexeme.toList = text at lexeme
  cases lexeme with
  | @identifier letter rest starts _ free =>
      have starts := (Segment.startsName_iff letter).mpr starts
      have other : name.lexeme ≠ "this" := fun same =>
        free .this (by rw [← spelled, same]; rfl)
      have unreserved : Keyword.ofSpelling? (letter :: rest) = none := by
        cases found : Keyword.ofSpelling? (letter :: rest) with
        | none => rfl
        | some keyword => exact absurd (Keyword.spelling_of_ofSpelling? found) (free keyword)
      simp [Outline.form, spelled, other, starts, unreserved]

theorem Expr.form_outline {value : Expr} (spelled : value.Spelled)
    (bare : ∀ literal ∈ value.literals, literal.IsBare) : value.outline.form = value.form := by
  cases value with
  | literal value => exact Literal.form_outline (bare value (.head _))
  | unary operator operand =>
      rw [Spelled] at spelled
      have head : operator.lexeme ∈ ["!", "-"] := spelled.1.lexeme_mem (by decide)
      simp only [List.mem_cons, List.not_mem_nil, or_false] at head
      rcases head with head | head <;> simp [outline, Outline.form, form, head]
  | binary left operator right =>
      rw [Spelled] at spelled
      have head : operator.lexeme ∈ ["!=", "==", ">", ">=", "<", "<=", "-", "+", "/", "*"] :=
        spelled.2.1.lexeme_mem (by decide)
      simp only [List.mem_cons, List.not_mem_nil, or_false] at head
      rcases head with head | head | head | head | head | head | head | head | head | head <;>
        simp [outline, Outline.form, form, head]
  | logical left operator right =>
      rw [Spelled] at spelled
      have head : operator.lexeme ∈ ["or", "and"] := spelled.2.1.lexeme_mem (by decide)
      simp only [List.mem_cons, List.not_mem_nil, or_false] at head
      rcases head with head | head <;> simp [outline, Outline.form, form, head]
  | «variable» reference =>
      rw [Spelled] at spelled
      exact spelled.form_word
  | _ => simp [outline, Outline.form, form]

/-! ## Outlines tell expressions apart -/

section Tokens

variable {one other : Token} {kinds kinds' : List Token.Kind}

/-- A lexeme is a token of one kind only. -/
theorem Token.Fits.alike (fits : one.Fits kinds) (fits' : other.Fits kinds')
    (same : one.lexeme = other.lexeme) : Likeness.unlined.token one other := by
  have lexeme := fits.lexeme
  rw [same] at lexeme
  exact ⟨lexeme.kind_unique fits'.lexeme, same⟩

/-- A kind with a fixed spelling has one lexeme only. -/
theorem Token.Fits.alike_of_fixed {kind : Token.Kind} (fits : one.Fits [kind])
    (fits' : other.Fits [kind]) (fixed : kind.spelling?.isSome = true) :
    Likeness.unlined.token one other := by
  obtain ⟨spelling, found⟩ := Option.isSome_iff_exists.mp fixed
  have lexeme := fits.lexeme_mem (by simpa using fixed)
  have lexeme' := fits'.lexeme_mem (by simpa using fixed)
  simp only [List.filterMap_cons, found, List.filterMap_nil, List.mem_singleton] at lexeme lexeme'
  exact fits.alike fits' (lexeme.trans lexeme'.symm)

theorem Reference.alike_unlined {one other : Reference}
    (token : Likeness.unlined.token one.name other.name) : one.Alike .unlined other :=
  ⟨token, trivial⟩

end Tokens

/-- Expressions with one outline are built in the same way. -/
theorem Expr.form_eq {one other : Expr} (spelled : one.Spelled) (spelled' : other.Spelled)
    (bare : ∀ literal ∈ one.literals, literal.IsBare)
    (bare' : ∀ literal ∈ other.literals, literal.IsBare) (same : one.outline = other.outline) :
    one.form = other.form := by
  rw [← form_outline spelled bare, same, form_outline spelled' bare']

mutual

/-- Expressions with one outline are alike, since their parts have one outline as well. -/
theorem Expr.alike_of_outline : (one other : Expr) → one.Spelled → other.Spelled →
    (∀ literal ∈ one.literals, literal.IsBare) → (∀ literal ∈ other.literals, literal.IsBare) →
    one.outline = other.outline → one.Alike .unlined other
  | .literal value, other, spelled, spelled', bare, bare', same => by
      have forms := form_eq spelled spelled' bare bare' same
      cases other with
      | literal value' =>
          rw [outline, outline, Outline.word.injEq] at same
          obtain rfl := Literal.prefixText_injective (bare value (.head _))
            (bare' value' (.head _)) same
          exact .literal value
      | _ => cases forms
  | .grouping inner, other, spelled, spelled', bare, bare', same => by
      have forms := form_eq spelled spelled' bare bare' same
      cases other with
      | grouping inner' =>
          simp only [Spelled, literals, outline, Outline.node.injEq, List.cons.injEq]
            at spelled spelled' bare bare' same
          exact .grouping (alike_of_outline inner inner' spelled spelled' bare bare' same.2.1)
      | _ => cases forms
  | .unary operator operand, other, spelled, spelled', bare, bare', same => by
      have forms := form_eq spelled spelled' bare bare' same
      cases other with
      | unary operator' operand' =>
          simp only [Spelled, literals, outline, Outline.node.injEq, List.cons.injEq]
            at spelled spelled' bare bare' same
          exact .unary (spelled.1.alike spelled'.1 same.1)
            (alike_of_outline operand operand' spelled.2 spelled'.2 bare bare' same.2.1)
      | _ => cases forms
  | .binary left operator right, other, spelled, spelled', bare, bare', same => by
      have forms := form_eq spelled spelled' bare bare' same
      cases other with
      | binary left' operator' right' =>
          simp only [Spelled, literals, List.forall_mem_append, outline, Outline.node.injEq,
            List.cons.injEq] at spelled spelled' bare bare' same
          exact .binary
            (alike_of_outline left left' spelled.1 spelled'.1 bare.1 bare'.1 same.2.1)
            (spelled.2.1.alike spelled'.2.1 same.1)
            (alike_of_outline right right' spelled.2.2 spelled'.2.2 bare.2 bare'.2 same.2.2.1)
      | _ => cases forms
  | .logical left operator right, other, spelled, spelled', bare, bare', same => by
      have forms := form_eq spelled spelled' bare bare' same
      cases other with
      | logical left' operator' right' =>
          simp only [Spelled, literals, List.forall_mem_append, outline, Outline.node.injEq,
            List.cons.injEq] at spelled spelled' bare bare' same
          exact .logical
            (alike_of_outline left left' spelled.1 spelled'.1 bare.1 bare'.1 same.2.1)
            (spelled.2.1.alike spelled'.2.1 same.1)
            (alike_of_outline right right' spelled.2.2 spelled'.2.2 bare.2 bare'.2 same.2.2.1)
      | _ => cases forms
  | .variable reference, other, spelled, spelled', bare, bare', same => by
      have forms := form_eq spelled spelled' bare bare' same
      cases other with
      | «variable» reference' =>
          simp only [Spelled, outline, Outline.word.injEq] at spelled spelled' same
          exact .variable (Reference.alike_unlined (spelled.alike spelled' same))
      | _ => cases forms
  | .assign reference value, other, spelled, spelled', bare, bare', same => by
      have forms := form_eq spelled spelled' bare bare' same
      cases other with
      | assign reference' value' =>
          simp only [Spelled, literals, outline, Outline.node.injEq, List.cons.injEq,
            Outline.word.injEq] at spelled spelled' bare bare' same
          exact .assign (Reference.alike_unlined (spelled.1.alike spelled'.1 same.2.1))
            (alike_of_outline value value' spelled.2 spelled'.2 bare bare' same.2.2.1)
      | _ => cases forms
  | .call callee paren arguments, other, spelled, spelled', bare, bare', same => by
      have forms := form_eq spelled spelled' bare bare' same
      cases other with
      | call callee' paren' arguments' =>
          simp only [Spelled, literals, List.forall_mem_append, outline, Outline.node.injEq,
            List.cons.injEq] at spelled spelled' bare bare' same
          exact .call (alike_of_outline callee callee' spelled.1 spelled'.1 bare.1 bare'.1 same.2.1)
            (spelled.2.2.alike_of_fixed spelled'.2.2 rfl)
            (alike_of_outlines arguments arguments' spelled.2.1 spelled'.2.1 bare.2 bare'.2
              same.2.2)
      | _ => cases forms
  | .get object name, other, spelled, spelled', bare, bare', same => by
      have forms := form_eq spelled spelled' bare bare' same
      cases other with
      | get object' name' =>
          simp only [Spelled, literals, outline, Outline.node.injEq, List.cons.injEq,
            Outline.word.injEq] at spelled spelled' bare bare' same
          exact .get (alike_of_outline object object' spelled.1 spelled'.1 bare bare' same.2.2.1)
            (spelled.2.alike spelled'.2 same.2.1)
      | _ => cases forms
  | .set object name value, other, spelled, spelled', bare, bare', same => by
      have forms := form_eq spelled spelled' bare bare' same
      cases other with
      | set object' name' value' =>
          simp only [Spelled, literals, List.forall_mem_append, outline, Outline.node.injEq,
            List.cons.injEq, Outline.word.injEq] at spelled spelled' bare bare' same
          exact .set
            (alike_of_outline object object' spelled.1 spelled'.1 bare.1 bare'.1 same.2.2.2.1)
            (spelled.2.1.alike spelled'.2.1 same.2.2.1)
            (alike_of_outline value value' spelled.2.2 spelled'.2.2 bare.2 bare'.2 same.2.2.2.2.1)
      | _ => cases forms
  | .this reference, other, spelled, spelled', bare, bare', same => by
      have forms := form_eq spelled spelled' bare bare' same
      cases other with
      | this reference' =>
          rw [Spelled] at spelled spelled'
          exact .this (Reference.alike_unlined (spelled.alike_of_fixed spelled' rfl))
      | _ => cases forms
  | .super reference method, other, spelled, spelled', bare, bare', same => by
      have forms := form_eq spelled spelled' bare bare' same
      cases other with
      | super reference' method' =>
          simp only [Spelled, outline, Outline.node.injEq, List.cons.injEq, Outline.word.injEq]
            at spelled spelled' same
          exact .super (Reference.alike_unlined (spelled.1.alike_of_fixed spelled'.1 rfl))
            (spelled.2.alike spelled'.2 same.2.1)
      | _ => cases forms

theorem Expr.alike_of_outlines : (values values' : List Expr) → Expr.ListSpelled values →
    Expr.ListSpelled values' → (∀ literal ∈ Expr.listLiterals values, literal.IsBare) →
    (∀ literal ∈ Expr.listLiterals values', literal.IsBare) →
    Expr.outlines values = Expr.outlines values' →
    List.Forall₂ (Expr.Alike .unlined) values values'
  | [], [], _, _, _, _, _ => .nil
  | [], _ :: _, _, _, _, _, same => by cases same
  | _ :: _, [], _, _, _, _, same => by cases same
  | first :: rest, first' :: rest', spelled, spelled', bare, bare', same => by
      simp only [ListSpelled, listLiterals, List.forall_mem_append, outlines, List.cons.injEq]
        at spelled spelled' bare bare' same
      exact .cons
        (alike_of_outline first first' spelled.1 spelled'.1 bare.1 bare'.1 same.1)
        (alike_of_outlines rest rest' spelled.2 spelled'.2 bare.2 bare'.2 same.2)

end

/-! ## Prefix forms -/

mutual

/-- Expressions alike have the same prefix form. -/
theorem Expr.Alike.prefixForm_eq {likeness : Likeness} {one other : Expr} :
    one.Alike likeness other → one.prefixForm = other.prefixForm
  | .literal _ => rfl
  | .grouping parts => by rw [prefixForm, prefixForm, parts.prefixForm_eq]
  | .unary token parts => by
      rw [prefixForm, prefixForm, likeness.lexeme token, parts.prefixForm_eq]
  | .binary first token second => by
      rw [prefixForm, prefixForm, likeness.lexeme token, first.prefixForm_eq, second.prefixForm_eq]
  | .logical first token second => by
      rw [prefixForm, prefixForm, likeness.lexeme token, first.prefixForm_eq, second.prefixForm_eq]
  | .variable use => by rw [prefixForm, prefixForm, likeness.lexeme use.name]
  | .assign use parts => by
      rw [prefixForm, prefixForm, likeness.lexeme use.name, parts.prefixForm_eq]
  | .call first _ parts => by
      rw [prefixForm, prefixForm, first.prefixForm_eq, Expr.prefixForms_eq parts]
  | .get parts token => by
      rw [prefixForm, prefixForm, likeness.lexeme token, parts.prefixForm_eq]
  | .set first token second => by
      rw [prefixForm, prefixForm, likeness.lexeme token, first.prefixForm_eq, second.prefixForm_eq]
  | .this _ => by rw [prefixForm, prefixForm]
  | .super _ token => by rw [prefixForm, prefixForm, likeness.lexeme token]

theorem Expr.prefixForms_eq {likeness : Likeness} {values values' : List Expr} :
    List.Forall₂ (Expr.Alike likeness) values values' →
      Expr.prefixForms values = Expr.prefixForms values'
  | .nil => rfl
  | .cons first rest => by
      rw [prefixForms, prefixForms, first.prefixForm_eq, Expr.prefixForms_eq rest]

end

variable {source source' : String} {next next' : Nat} {value value' : Expr}

/-- The tokens of an expression that is read from a text fit their places. -/
theorem spelled_of_read (accepted : (readExpression source next).1 = .ok value) :
    value.Spelled := by
  obtain ⟨-, read⟩ := readExpression_ok_iff.mp accepted
  have derivation := (Grammar.sound_readExpression read).1
  rw [contents_scan] at derivation
  apply Grammar.fits_expression derivation
  exact Leaf.lexical_of_matches (Grammar.spells_expression derivation).forall₂
    fun _ => isLexeme_of_words

/-- What can be computed about the prefix form of a text holds of the expression in it. -/
theorem exists_bare {expected : String} (held : (readExpression source next).1.toOption.any
      (fun value => (∀ literal ∈ value.literals, literal.IsBare) ∧ value.prefixForm = expected) =
        true) :
    ∃ value, (readExpression source next).1 = .ok value ∧
      (∀ literal ∈ value.literals, literal.IsBare) ∧ value.prefixForm = expected := by
  cases found : (readExpression source next).1 with
  | error _ =>
      rw [found] at held
      cases held
  | ok value =>
      rw [found] at held
      exact ⟨value, rfl, of_decide_eq_true held⟩

/-- Two texts hold expressions whose literals are words. These have the same prefix form
exactly if they differ in nothing but the lines of their tokens and the numbers of their
names. -/
theorem prefixForm_eq_iff (accepted : (readExpression source next).1 = .ok value)
    (accepted' : (readExpression source' next').1 = .ok value')
    (bare : ∀ literal ∈ value.literals, literal.IsBare)
    (bare' : ∀ literal ∈ value'.literals, literal.IsBare) :
    value.prefixForm = value'.prefixForm ↔ value.Alike .unlined value' := by
  have spelled := spelled_of_read accepted
  have spelled' := spelled_of_read accepted'
  constructor
  · intro same
    -- Both forms are texts of outlines, and an outline is known by its text.
    have texts : value.outline.text = value'.outline.text := by
      rw [Expr.text_outline, Expr.text_outline, same]
    have outlines := Outline.text_injective (value.legible_outline spelled bare)
      (value'.legible_outline spelled' bare') texts
    exact value.alike_of_outline value' spelled spelled' bare bare' outlines
  · exact Expr.Alike.prefixForm_eq

/-- A minus sign in front of one operand and one between two, on one line and on two. -/
theorem prefixForm_eq_iff_minus : ∃ value value',
    (readExpression "-a - 1.5" 0).1 = .ok value ∧
      (readExpression "- a\n-1.50" 3).1 = .ok value' ∧
      (∀ literal ∈ value.literals, literal.IsBare) ∧
      (∀ literal ∈ value'.literals, literal.IsBare) ∧
      value.prefixForm = "(- (- a) 1.5)" ∧ value.Alike .unlined value' := by
  obtain ⟨value, accepted, bare, form⟩ : ∃ value,
      (readExpression "-a - 1.5" 0).1 = .ok value ∧
        (∀ literal ∈ value.literals, literal.IsBare) ∧ value.prefixForm = "(- (- a) 1.5)" :=
    exists_bare (by decide +kernel)
  obtain ⟨value', accepted', bare', form'⟩ : ∃ value,
      (readExpression "- a\n-1.50" 3).1 = .ok value ∧
        (∀ literal ∈ value.literals, literal.IsBare) ∧ value.prefixForm = "(- (- a) 1.5)" :=
    exists_bare (by decide +kernel)
  refine ⟨value, value', accepted, accepted', bare, bare', form, ?_⟩
  exact (prefixForm_eq_iff accepted accepted' bare bare').mp (form.trans form'.symm)

end Lox
