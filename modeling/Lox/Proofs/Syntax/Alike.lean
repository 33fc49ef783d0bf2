import Lox.Diagnostic
import Lox.Proofs.Syntax.Numbers
import Mathlib.Data.List.Forall2
import Mathlib.Data.Option.Basic

/-!
# Trees alike

Two trees are alike if they differ only in the lines of their tokens and in the
numbers of their uses of names. Which lines and which numbers may stand for each
other is said by a `Likeness`, which every relation between two runs of a
program is built on.
-/

namespace Lox

/-- Which tokens and which reference numbers stand for each other. Tokens that
do differ in their lines only. -/
structure Likeness where
  token : Token → Token → Prop
  number : Nat → Nat → Prop
  kind : ∀ {one other : Token}, token one other → one.kind = other.kind
  lexeme : ∀ {one other : Token}, token one other → one.lexeme = other.lexeme

namespace Likeness

/-- Tokens stand for themselves. -/
def exact (number : Nat → Nat → Prop) : Likeness :=
  ⟨Eq, number, fun same => same ▸ rfl, fun same => same ▸ rfl⟩

/-- The same tokens with other numbers. -/
def numbered (likeness : Likeness) (number : Nat → Nat → Prop) : Likeness :=
  { likeness with number := number }

/-- Lines stand for each other if they are those of two such tokens. -/
def line (likeness : Likeness) (one other : Nat) : Prop :=
  ∃ first second, likeness.token first second ∧ first.line = one ∧ second.line = other

/-- What stands for each other in one likeness does so in a wider one. -/
structure Within (likeness wider : Likeness) : Prop where
  token : ∀ {one other : Token}, likeness.token one other → wider.token one other
  number : ∀ {one other : Nat}, likeness.number one other → wider.number one other

theorem Within.refl (likeness : Likeness) : likeness.Within likeness :=
  ⟨id, id⟩

theorem Within.line {likeness wider : Likeness} (within : likeness.Within wider) {one other : Nat}
    (related : likeness.line one other) : wider.line one other := by
  obtain ⟨first, second, same, here, there⟩ := related
  exact ⟨first, second, within.token same, here, there⟩

end Likeness

/-- A likeness pairs numbers up if no number stands for two others, either way. -/
def Likeness.OneToOne (likeness : Likeness) : Prop :=
  ∀ ⦃one one' other other' : Nat⦄, likeness.number one one' → likeness.number other other' →
    (one = other ↔ one' = other')

/-- The same fault at places that stand for each other. -/
structure Diagnostic.Alike (likeness : Likeness) (one other : Diagnostic) : Prop where
  stage : one.stage = other.stage
  line : likeness.line one.line other.line
  place : one.place = other.place
  fault : one.fault = other.fault

theorem Diagnostic.alike_atToken {likeness : Likeness} {token token' : Token} (stage : Stage)
    (fault : Fault) (same : likeness.token token token') :
    (Diagnostic.atToken stage token fault).Alike likeness (.atToken stage token' fault) := by
  refine ⟨rfl, ⟨_, _, same, rfl, rfl⟩, ?_, rfl⟩
  change Place.ofToken token = Place.ofToken token'
  unfold Place.ofToken
  rw [likeness.kind same, likeness.lexeme same]

/-- Where tokens stand for themselves alone, faults alike are the same. -/
theorem Diagnostic.Alike.eq {number : Nat → Nat → Prop} {one other : Diagnostic}
    (alike : one.Alike (.exact number) other) : one = other := by
  obtain ⟨stage, line, place, fault⟩ := one
  obtain ⟨stage', line', place', fault'⟩ := other
  obtain ⟨rfl, ⟨token, _, rfl, rfl, rfl⟩, rfl, rfl⟩ := alike
  rfl

theorem Diagnostic.list_eq {number : Nat → Nat → Prop} {faults faults' : List Diagnostic}
    (alike : List.Forall₂ (Diagnostic.Alike (.exact number)) faults faults') :
    faults = faults' := by
  induction alike with
  | nil => rfl
  | cons first _ ih => rw [first.eq, ih]

/-! ## Trees -/

/-- Two uses of names alike. -/
structure Reference.Alike (likeness : Likeness) (one other : Reference) : Prop where
  name : likeness.token one.name other.name
  id : likeness.number one.id other.id

/-- Two expressions alike. -/
inductive Expr.Alike (likeness : Likeness) : Expr → Expr → Prop where
  | literal (value : Literal) : Expr.Alike likeness (.literal value) (.literal value)
  | grouping {inner inner' : Expr} (parts : Expr.Alike likeness inner inner') :
      Expr.Alike likeness (.grouping inner) (.grouping inner')
  | unary {operator operator' : Token} {operand operand' : Expr}
      (token : likeness.token operator operator')
      (parts : Expr.Alike likeness operand operand') :
      Expr.Alike likeness (.unary operator operand) (.unary operator' operand')
  | binary {left left' right right' : Expr} {operator operator' : Token}
      (first : Expr.Alike likeness left left') (token : likeness.token operator operator')
      (second : Expr.Alike likeness right right') :
      Expr.Alike likeness (.binary left operator right) (.binary left' operator' right')
  | logical {left left' right right' : Expr} {operator operator' : Token}
      (first : Expr.Alike likeness left left') (token : likeness.token operator operator')
      (second : Expr.Alike likeness right right') :
      Expr.Alike likeness (.logical left operator right) (.logical left' operator' right')
  | variable {reference reference' : Reference} (use : reference.Alike likeness reference') :
      Expr.Alike likeness (.variable reference) (.variable reference')
  | assign {reference reference' : Reference} {value value' : Expr}
      (use : reference.Alike likeness reference') (parts : Expr.Alike likeness value value') :
      Expr.Alike likeness (.assign reference value) (.assign reference' value')
  | call {callee callee' : Expr} {paren paren' : Token} {arguments arguments' : List Expr}
      (first : Expr.Alike likeness callee callee') (token : likeness.token paren paren')
      (parts : List.Forall₂ (Expr.Alike likeness) arguments arguments') :
      Expr.Alike likeness (.call callee paren arguments) (.call callee' paren' arguments')
  | get {object object' : Expr} {name name' : Token}
      (parts : Expr.Alike likeness object object') (token : likeness.token name name') :
      Expr.Alike likeness (.get object name) (.get object' name')
  | set {object object' value value' : Expr} {name name' : Token}
      (first : Expr.Alike likeness object object') (token : likeness.token name name')
      (second : Expr.Alike likeness value value') :
      Expr.Alike likeness (.set object name value) (.set object' name' value')
  | this {reference reference' : Reference} (use : reference.Alike likeness reference') :
      Expr.Alike likeness (.this reference) (.this reference')
  | super {reference reference' : Reference} {method method' : Token}
      (use : reference.Alike likeness reference') (token : likeness.token method method') :
      Expr.Alike likeness (.super reference method) (.super reference' method')

mutual

/-- Two statements alike. -/
inductive Stmt.Alike (likeness : Likeness) : Stmt → Stmt → Prop where
  | expression {value value' : Expr} (parts : value.Alike likeness value') :
      Stmt.Alike likeness (.expression value) (.expression value')
  | print {value value' : Expr} (parts : value.Alike likeness value') :
      Stmt.Alike likeness (.print value) (.print value')
  | var {name name' : Token} {initializer initializer' : Option Expr}
      (token : likeness.token name name')
      (parts : Option.Rel (Expr.Alike likeness) initializer initializer') :
      Stmt.Alike likeness (.var name initializer) (.var name' initializer')
  | block {body body' : List Stmt} (parts : List.Forall₂ (Stmt.Alike likeness) body body') :
      Stmt.Alike likeness (.block body) (.block body')
  | conditional {condition condition' : Expr} {consequent consequent' : Stmt}
      {alternative alternative' : Option Stmt}
      (first : condition.Alike likeness condition')
      (second : Stmt.Alike likeness consequent consequent')
      (third : Option.Rel (Stmt.Alike likeness) alternative alternative') :
      Stmt.Alike likeness (.conditional condition consequent alternative)
        (.conditional condition' consequent' alternative')
  | whileLoop {condition condition' : Expr} {body body' : Stmt}
      (first : condition.Alike likeness condition') (second : Stmt.Alike likeness body body') :
      Stmt.Alike likeness (.whileLoop condition body) (.whileLoop condition' body')
  | forLoop {initializer initializer' : Option Stmt}
      {condition condition' increment increment' : Option Expr} {body body' : Stmt}
      (first : Option.Rel (Stmt.Alike likeness) initializer initializer')
      (second : Option.Rel (Expr.Alike likeness) condition condition')
      (third : Option.Rel (Expr.Alike likeness) increment increment')
      (fourth : Stmt.Alike likeness body body') :
      Stmt.Alike likeness (.forLoop initializer condition increment body)
        (.forLoop initializer' condition' increment' body')
  | function {declaration declaration' : FunctionDecl}
      (parts : FunctionDecl.Alike likeness declaration declaration') :
      Stmt.Alike likeness (.function declaration) (.function declaration')
  | returning {keyword keyword' : Token} {value value' : Option Expr}
      (token : likeness.token keyword keyword')
      (parts : Option.Rel (Expr.Alike likeness) value value') :
      Stmt.Alike likeness (.returning keyword value) (.returning keyword' value')
  | classDecl {name name' : Token} {superclass superclass' : Option Expr}
      {methods methods' : List FunctionDecl} (token : likeness.token name name')
      (first : Option.Rel (Expr.Alike likeness) superclass superclass')
      (second : List.Forall₂ (FunctionDecl.Alike likeness) methods methods') :
      Stmt.Alike likeness (.classDecl name superclass methods)
        (.classDecl name' superclass' methods')

/-- Two functions alike. -/
inductive FunctionDecl.Alike (likeness : Likeness) : FunctionDecl → FunctionDecl → Prop where
  | intro {name name' : Token} {parameters parameters' : List Token} {body body' : List Stmt}
      (token : likeness.token name name')
      (listed : List.Forall₂ likeness.token parameters parameters')
      (parts : List.Forall₂ (Stmt.Alike likeness) body body') :
      FunctionDecl.Alike likeness ⟨name, parameters, body⟩ ⟨name', parameters', body'⟩

end

theorem FunctionDecl.Alike.name {likeness : Likeness} {one other : FunctionDecl}
    (alike : one.Alike likeness other) : likeness.token one.name other.name := by
  cases alike with
  | intro token _ _ => exact token

theorem FunctionDecl.Alike.parameters {likeness : Likeness} {one other : FunctionDecl}
    (alike : one.Alike likeness other) :
    List.Forall₂ likeness.token one.parameters other.parameters := by
  cases alike with
  | intro _ listed _ => exact listed

theorem FunctionDecl.Alike.body {likeness : Likeness} {one other : FunctionDecl}
    (alike : one.Alike likeness other) :
    List.Forall₂ (Stmt.Alike likeness) one.body other.body := by
  cases alike with
  | intro _ _ parts => exact parts

/-- Expressions alike are blamed on lines that stand for each other. -/
theorem Expr.Alike.line {likeness : Likeness} {one other : Expr} :
    one.Alike likeness other → Option.Rel likeness.line one.line? other.line?
  | .literal _ => .none
  | .grouping parts => parts.line
  | .unary token _ => .some ⟨_, _, token, rfl, rfl⟩
  | .binary _ token _ => .some ⟨_, _, token, rfl, rfl⟩
  | .logical _ token _ => .some ⟨_, _, token, rfl, rfl⟩
  | .variable use => .some ⟨_, _, use.name, rfl, rfl⟩
  | .assign use _ => .some ⟨_, _, use.name, rfl, rfl⟩
  | .call _ token _ => .some ⟨_, _, token, rfl, rfl⟩
  | .get _ token => .some ⟨_, _, token, rfl, rfl⟩
  | .set _ token _ => .some ⟨_, _, token, rfl, rfl⟩
  | .this use => .some ⟨_, _, use.name, rfl, rfl⟩
  | .super use _ => .some ⟨_, _, use.name, rfl, rfl⟩

/-! ## Wider likenesses -/

section Widening

variable {likeness wider : Likeness}

theorem Reference.Alike.widen (within : likeness.Within wider) {one other : Reference}
    (alike : one.Alike likeness other) : one.Alike wider other :=
  ⟨within.token alike.name, within.number alike.id⟩

mutual

theorem Expr.Alike.widen (within : likeness.Within wider) {one other : Expr} :
    one.Alike likeness other → one.Alike wider other
  | .literal value => .literal value
  | .grouping parts => .grouping (parts.widen within)
  | .unary token parts => .unary (within.token token) (parts.widen within)
  | .binary first token second =>
      .binary (first.widen within) (within.token token) (second.widen within)
  | .logical first token second =>
      .logical (first.widen within) (within.token token) (second.widen within)
  | .variable use => .variable (use.widen within)
  | .assign use parts => .assign (use.widen within) (parts.widen within)
  | .call first token parts =>
      .call (first.widen within) (within.token token) (Expr.widen_list within parts)
  | .get parts token => .get (parts.widen within) (within.token token)
  | .set first token second =>
      .set (first.widen within) (within.token token) (second.widen within)
  | .this use => .this (use.widen within)
  | .super use token => .super (use.widen within) (within.token token)

theorem Expr.widen_list (within : likeness.Within wider) {values values' : List Expr} :
    List.Forall₂ (Expr.Alike likeness) values values' →
      List.Forall₂ (Expr.Alike wider) values values'
  | .nil => .nil
  | .cons first rest => .cons (first.widen within) (Expr.widen_list within rest)

end

theorem Expr.widen_option (within : likeness.Within wider) {value value' : Option Expr} :
    Option.Rel (Expr.Alike likeness) value value' → Option.Rel (Expr.Alike wider) value value'
  | .none => .none
  | .some parts => .some (parts.widen within)

mutual

theorem Stmt.Alike.widen (within : likeness.Within wider) {one other : Stmt} :
    one.Alike likeness other → one.Alike wider other
  | .expression parts => .expression (parts.widen within)
  | .print parts => .print (parts.widen within)
  | .var token parts => .var (within.token token) (Expr.widen_option within parts)
  | .block parts => .block (Stmt.widen_list within parts)
  | .conditional first second third =>
      .conditional (first.widen within) (second.widen within) (Stmt.widen_option within third)
  | .whileLoop first second => .whileLoop (first.widen within) (second.widen within)
  | .forLoop first second third fourth =>
      .forLoop (Stmt.widen_option within first) (Expr.widen_option within second)
        (Expr.widen_option within third) (fourth.widen within)
  | .function parts => .function (parts.widen within)
  | .returning token parts => .returning (within.token token) (Expr.widen_option within parts)
  | .classDecl token first second =>
      .classDecl (within.token token) (Expr.widen_option within first)
        (FunctionDecl.widen_list within second)

theorem Stmt.widen_list (within : likeness.Within wider) {body body' : List Stmt} :
    List.Forall₂ (Stmt.Alike likeness) body body' → List.Forall₂ (Stmt.Alike wider) body body'
  | .nil => .nil
  | .cons first rest => .cons (first.widen within) (Stmt.widen_list within rest)

theorem Stmt.widen_option (within : likeness.Within wider) {statement statement' : Option Stmt} :
    Option.Rel (Stmt.Alike likeness) statement statement' →
      Option.Rel (Stmt.Alike wider) statement statement'
  | .none => .none
  | .some parts => .some (parts.widen within)

theorem FunctionDecl.Alike.widen (within : likeness.Within wider) {one other : FunctionDecl} :
    one.Alike likeness other → one.Alike wider other
  | .intro token listed parts =>
      .intro (within.token token) (listed.imp fun _ _ => within.token)
        (Stmt.widen_list within parts)

theorem FunctionDecl.widen_list (within : likeness.Within wider)
    {methods methods' : List FunctionDecl} :
    List.Forall₂ (FunctionDecl.Alike likeness) methods methods' →
      List.Forall₂ (FunctionDecl.Alike wider) methods methods'
  | .nil => .nil
  | .cons first rest => .cons (first.widen within) (FunctionDecl.widen_list within rest)

end

end Widening

end Lox
