import Lox.Proofs.Syntax.Alike

/-!
# Trees alike up to their numbers

Trees alike have numbers that stand for each other, one for one in the order in
which they were given out. So trees that differ in nothing but their numbers are
alike as soon as these are paired up in that order.
-/

namespace Lox

variable {likeness : Likeness} {number : Nat → Nat → Prop}

/-! ## Numbers of trees alike -/

mutual

/-- Expressions alike have numbers that stand for each other. -/
theorem Expr.Alike.numbers {one other : Expr} :
    one.Alike likeness other → List.Forall₂ likeness.number one.numbers other.numbers
  | .literal _ => .nil
  | .grouping parts => parts.numbers
  | .unary _ parts => parts.numbers
  | .binary first _ second => List.rel_append first.numbers second.numbers
  | .logical first _ second => List.rel_append first.numbers second.numbers
  | .variable use => .cons use.id .nil
  | .assign use parts => List.rel_append parts.numbers (.cons use.id .nil)
  | .call first _ parts => List.rel_append first.numbers (Expr.numbers_list parts)
  | .get parts _ => parts.numbers
  | .set first _ second => List.rel_append first.numbers second.numbers
  | .this use => .cons use.id .nil
  | .super use _ => .cons use.id .nil

theorem Expr.numbers_list {values values' : List Expr} :
    List.Forall₂ (Expr.Alike likeness) values values' →
      List.Forall₂ likeness.number (Expr.listNumbers values) (Expr.listNumbers values')
  | .nil => .nil
  | .cons first rest => List.rel_append first.numbers (Expr.numbers_list rest)

end

theorem Expr.numbers_option {value value' : Option Expr} :
    Option.Rel (Expr.Alike likeness) value value' →
      List.Forall₂ likeness.number (Expr.optionNumbers value) (Expr.optionNumbers value')
  | .none => .nil
  | .some parts => parts.numbers

mutual

/-- Statements alike have numbers that stand for each other. -/
theorem Stmt.Alike.numbers {one other : Stmt} :
    one.Alike likeness other → List.Forall₂ likeness.number one.numbers other.numbers
  | .expression parts => parts.numbers
  | .print parts => parts.numbers
  | .var _ parts => Expr.numbers_option parts
  | .block parts => Stmt.numbers_list parts
  | .conditional first second third =>
      List.rel_append (List.rel_append first.numbers second.numbers) (Stmt.numbers_option third)
  | .whileLoop first second => List.rel_append first.numbers second.numbers
  | .forLoop first second third fourth =>
      List.rel_append (List.rel_append (List.rel_append (Stmt.numbers_option first)
        (Expr.numbers_option second)) (Expr.numbers_option third)) fourth.numbers
  | .function parts => parts.numbers
  | .returning _ parts => Expr.numbers_option parts
  | .classDecl _ first second =>
      List.rel_append (Expr.numbers_option first) (FunctionDecl.numbers_list second)

theorem Stmt.numbers_list {body body' : List Stmt} :
    List.Forall₂ (Stmt.Alike likeness) body body' →
      List.Forall₂ likeness.number (Stmt.listNumbers body) (Stmt.listNumbers body')
  | .nil => .nil
  | .cons first rest => List.rel_append first.numbers (Stmt.numbers_list rest)

theorem Stmt.numbers_option {statement statement' : Option Stmt} :
    Option.Rel (Stmt.Alike likeness) statement statement' →
      List.Forall₂ likeness.number (Stmt.optionNumbers statement) (Stmt.optionNumbers statement')
  | .none => .nil
  | .some parts => parts.numbers

theorem FunctionDecl.Alike.numbers {one other : FunctionDecl} :
    one.Alike likeness other → List.Forall₂ likeness.number one.numbers other.numbers
  | .intro _ _ parts => Stmt.numbers_list parts

theorem FunctionDecl.numbers_list {methods methods' : List FunctionDecl} :
    List.Forall₂ (FunctionDecl.Alike likeness) methods methods' →
      List.Forall₂ likeness.number (FunctionDecl.listNumbers methods)
        (FunctionDecl.listNumbers methods')
  | .nil => .nil
  | .cons first rest => List.rel_append first.numbers (FunctionDecl.numbers_list rest)

end

/-! ## Other numbers -/

/-- Lists paired up one for one, each in two parts of the same lengths. -/
theorem paired_append {α β : Type} {related : α → β → Prop} {front back : List α}
    {front' back' : List β} (same : front.length = front'.length) :
    List.Forall₂ related (front ++ back) (front' ++ back') ↔
      List.Forall₂ related front front' ∧ List.Forall₂ related back back' := by
  induction front generalizing front' with
  | nil =>
      cases front' with
      | nil => simp
      | cons first rest => cases same
  | cons first rest ih =>
      cases front' with
      | nil => cases same
      | cons first' rest' => simp [ih (Nat.succ.inj same), and_assoc]

theorem Reference.Alike.renumber {one other : Reference} (alike : one.Alike likeness other)
    (paired : List.Forall₂ number [one.id] [other.id]) :
    one.Alike (likeness.numbered number) other := by
  cases paired with
  | cons first _ => exact ⟨alike.name, first⟩

mutual

/-- Expressions alike are so for every pairing of their numbers. -/
theorem Expr.Alike.renumber {one other : Expr} :
    one.Alike likeness other → List.Forall₂ number one.numbers other.numbers →
      one.Alike (likeness.numbered number) other
  | .literal value, _ => .literal value
  | .grouping parts, paired => .grouping (parts.renumber paired)
  | .unary token parts, paired => .unary token (parts.renumber paired)
  | .binary first token second, paired =>
      have both := (paired_append first.numbers.length_eq).mp paired
      .binary (first.renumber both.1) token (second.renumber both.2)
  | .logical first token second, paired =>
      have both := (paired_append first.numbers.length_eq).mp paired
      .logical (first.renumber both.1) token (second.renumber both.2)
  | .variable use, paired => .variable (use.renumber paired)
  | .assign use parts, paired =>
      have both := (paired_append parts.numbers.length_eq).mp paired
      .assign (use.renumber both.2) (parts.renumber both.1)
  | .call first token parts, paired =>
      have both := (paired_append first.numbers.length_eq).mp paired
      .call (first.renumber both.1) token (Expr.renumber_list parts both.2)
  | .get parts token, paired => .get (parts.renumber paired) token
  | .set first token second, paired =>
      have both := (paired_append first.numbers.length_eq).mp paired
      .set (first.renumber both.1) token (second.renumber both.2)
  | .this use, paired => .this (use.renumber paired)
  | .super use token, paired => .super (use.renumber paired) token

theorem Expr.renumber_list {values values' : List Expr} :
    List.Forall₂ (Expr.Alike likeness) values values' →
      List.Forall₂ number (Expr.listNumbers values) (Expr.listNumbers values') →
      List.Forall₂ (Expr.Alike (likeness.numbered number)) values values'
  | .nil, _ => .nil
  | .cons first rest, paired =>
      have both := (paired_append first.numbers.length_eq).mp paired
      .cons (first.renumber both.1) (Expr.renumber_list rest both.2)

end

theorem Expr.renumber_option {value value' : Option Expr} :
    Option.Rel (Expr.Alike likeness) value value' →
      List.Forall₂ number (Expr.optionNumbers value) (Expr.optionNumbers value') →
      Option.Rel (Expr.Alike (likeness.numbered number)) value value'
  | .none, _ => .none
  | .some parts, paired => .some (parts.renumber paired)

mutual

/-- Statements alike are so for every pairing of their numbers. -/
theorem Stmt.Alike.renumber {one other : Stmt} :
    one.Alike likeness other → List.Forall₂ number one.numbers other.numbers →
      one.Alike (likeness.numbered number) other
  | .expression parts, paired => .expression (parts.renumber paired)
  | .print parts, paired => .print (parts.renumber paired)
  | .var token parts, paired => .var token (Expr.renumber_option parts paired)
  | .block parts, paired => .block (Stmt.renumber_list parts paired)
  | .conditional first second third, paired =>
      have front := List.rel_append first.numbers second.numbers
      have outer := (paired_append front.length_eq).mp paired
      have inner := (paired_append first.numbers.length_eq).mp outer.1
      .conditional (first.renumber inner.1) (second.renumber inner.2)
        (Stmt.renumber_option third outer.2)
  | .whileLoop first second, paired =>
      have both := (paired_append first.numbers.length_eq).mp paired
      .whileLoop (first.renumber both.1) (second.renumber both.2)
  | .forLoop first second third fourth, paired =>
      have clauses := List.rel_append (Stmt.numbers_option first) (Expr.numbers_option second)
      have front := List.rel_append clauses (Expr.numbers_option third)
      have outer := (paired_append front.length_eq).mp paired
      have middle := (paired_append clauses.length_eq).mp outer.1
      have inner := (paired_append (Stmt.numbers_option first).length_eq).mp middle.1
      .forLoop (Stmt.renumber_option first inner.1) (Expr.renumber_option second inner.2)
        (Expr.renumber_option third middle.2) (fourth.renumber outer.2)
  | .function parts, paired => .function (parts.renumber paired)
  | .returning token parts, paired => .returning token (Expr.renumber_option parts paired)
  | .classDecl token first second, paired =>
      have both := (paired_append (Expr.numbers_option first).length_eq).mp paired
      .classDecl token (Expr.renumber_option first both.1)
        (FunctionDecl.renumber_list second both.2)

theorem Stmt.renumber_list {body body' : List Stmt} :
    List.Forall₂ (Stmt.Alike likeness) body body' →
      List.Forall₂ number (Stmt.listNumbers body) (Stmt.listNumbers body') →
      List.Forall₂ (Stmt.Alike (likeness.numbered number)) body body'
  | .nil, _ => .nil
  | .cons first rest, paired =>
      have both := (paired_append first.numbers.length_eq).mp paired
      .cons (first.renumber both.1) (Stmt.renumber_list rest both.2)

theorem Stmt.renumber_option {statement statement' : Option Stmt} :
    Option.Rel (Stmt.Alike likeness) statement statement' →
      List.Forall₂ number (Stmt.optionNumbers statement) (Stmt.optionNumbers statement') →
      Option.Rel (Stmt.Alike (likeness.numbered number)) statement statement'
  | .none, _ => .none
  | .some parts, paired => .some (parts.renumber paired)

theorem FunctionDecl.Alike.renumber {one other : FunctionDecl} :
    one.Alike likeness other → List.Forall₂ number one.numbers other.numbers →
      one.Alike (likeness.numbered number) other
  | .intro token listed parts, paired => .intro token listed (Stmt.renumber_list parts paired)

theorem FunctionDecl.renumber_list {methods methods' : List FunctionDecl} :
    List.Forall₂ (FunctionDecl.Alike likeness) methods methods' →
      List.Forall₂ number (FunctionDecl.listNumbers methods) (FunctionDecl.listNumbers methods') →
      List.Forall₂ (FunctionDecl.Alike (likeness.numbered number)) methods methods'
  | .nil, _ => .nil
  | .cons first rest, paired =>
      have both := (paired_append first.numbers.length_eq).mp paired
      .cons (first.renumber both.1) (FunctionDecl.renumber_list rest both.2)

end

/-! ## More numbers -/

namespace Likeness

/-- Besides the numbers so far, those of one list stand for those of another one
in the same places. -/
def extended (number : Nat → Nat → Prop) (front back : List Nat) (one other : Nat) : Prop :=
  number one other ∨ (one, other) ∈ front.zip back

variable {number : Nat → Nat → Prop} {likeness : Likeness} {front back : List Nat}

theorem within_extended (likeness : Likeness) (front back : List Nat) :
    likeness.Within (likeness.numbered (extended likeness.number front back)) :=
  ⟨id, .inl⟩

/-- The numbers of two lists stand for each other once they are paired up. -/
theorem paired_extended (number : Nat → Nat → Prop) (same : front.length = back.length) :
    List.Forall₂ (extended number front back) front back :=
  List.forall₂_iff_zip.mpr ⟨same, fun inside => .inr inside⟩

theorem mem_of_zip {one other : Nat} (paired : (one, other) ∈ front.zip back) :
    ∃ index : Nat, front[index]? = some one ∧ back[index]? = some other := by
  obtain ⟨index, found⟩ := List.mem_iff_getElem?.mp paired
  exact ⟨index, List.getElem?_zip_eq_some.mp found⟩

theorem index_unique {numbers : List Nat} (nodup : numbers.Nodup) {first second number : Nat}
    (here : numbers[first]? = some number) (there : numbers[second]? = some number) :
    first = second := by
  obtain ⟨less, found⟩ := List.getElem?_eq_some_iff.mp here
  obtain ⟨bounded, again⟩ := List.getElem?_eq_some_iff.mp there
  exact (nodup.getElem_inj_iff).mp (found.trans again.symm)

/-- Numbers stay paired up one to one when fresh ones are added. -/
theorem OneToOne.extended (apart : likeness.OneToOne) {low low' high high' : Nat}
    (given : ∀ {one other : Nat}, likeness.number one other → one < low ∧ other < low')
    (fresh : Fresh low high front) (fresh' : Fresh low' high' back) :
    (likeness.numbered (Likeness.extended likeness.number front back)).OneToOne := by
  rintro one one' other other' (old | new) (before | added)
  · exact apart old before
  · have below := given old
    obtain ⟨inFront, inBack⟩ := List.of_mem_zip added
    have above := (fresh.range other inFront).1
    have above' := (fresh'.range other' inBack).1
    omega
  · have below := given before
    obtain ⟨inFront, inBack⟩ := List.of_mem_zip new
    have above := (fresh.range one inFront).1
    have above' := (fresh'.range one' inBack).1
    omega
  · obtain ⟨first, here, here'⟩ := mem_of_zip new
    obtain ⟨second, there, there'⟩ := mem_of_zip added
    constructor
    · rintro rfl
      obtain rfl := index_unique fresh.nodup here there
      exact Option.some.inj (here'.symm.trans there')
    · rintro rfl
      obtain rfl := index_unique fresh'.nodup here' there'
      exact Option.some.inj (here.symm.trans there)

end Likeness

/-! ## No numbers -/

section Unnumbered

variable (any : ∀ one other, likeness.number one other)
include any

theorem Reference.Alike.of_unnumbered {one other third : Reference}
    (alike : one.Alike likeness other) (same : third.unnumbered = other.unnumbered) :
    one.Alike likeness third := by
  have name : third.name = other.name := (Reference.mk.inj same).1
  exact ⟨name ▸ alike.name, any _ _⟩

set_option linter.unusedSectionVars false in
mutual

/-- An expression is alike whatever numbers the other one has. -/
theorem Expr.Alike.of_unnumbered {one other third : Expr} :
    one.Alike likeness other → third.unnumbered = other.unnumbered → one.Alike likeness third
  | .literal value, same => by
      cases third with
      | literal value => cases same; exact .literal _
      | _ => cases same
  | .grouping parts, same => by
      cases third with
      | grouping inner => exact .grouping (parts.of_unnumbered (Expr.grouping.inj same))
      | _ => cases same
  | .unary token parts, same => by
      cases third with
      | unary operator operand =>
          obtain ⟨rfl, inner⟩ := Expr.unary.inj same
          exact .unary token (parts.of_unnumbered inner)
      | _ => cases same
  | .binary first token second, same => by
      cases third with
      | binary left operator right =>
          obtain ⟨front, rfl, back⟩ := Expr.binary.inj same
          exact .binary (first.of_unnumbered front) token (second.of_unnumbered back)
      | _ => cases same
  | .logical first token second, same => by
      cases third with
      | logical left operator right =>
          obtain ⟨front, rfl, back⟩ := Expr.logical.inj same
          exact .logical (first.of_unnumbered front) token (second.of_unnumbered back)
      | _ => cases same
  | .variable use, same => by
      cases third with
      | «variable» reference => exact .variable (use.of_unnumbered any (Expr.variable.inj same))
      | _ => cases same
  | .assign use parts, same => by
      cases third with
      | assign reference value =>
          obtain ⟨target, inner⟩ := Expr.assign.inj same
          exact .assign (use.of_unnumbered any target) (parts.of_unnumbered inner)
      | _ => cases same
  | .call first token parts, same => by
      cases third with
      | call callee paren arguments =>
          obtain ⟨front, rfl, back⟩ := Expr.call.inj same
          exact .call (first.of_unnumbered front) token (Expr.of_unnumbered_list parts back)
      | _ => cases same
  | .get parts token, same => by
      cases third with
      | get object name =>
          obtain ⟨inner, rfl⟩ := Expr.get.inj same
          exact .get (parts.of_unnumbered inner) token
      | _ => cases same
  | .set first token second, same => by
      cases third with
      | set object name value =>
          obtain ⟨front, rfl, back⟩ := Expr.set.inj same
          exact .set (first.of_unnumbered front) token (second.of_unnumbered back)
      | _ => cases same
  | .this use, same => by
      cases third with
      | this reference => exact .this (use.of_unnumbered any (Expr.this.inj same))
      | _ => cases same
  | .super use token, same => by
      cases third with
      | super reference method =>
          obtain ⟨keyword, rfl⟩ := Expr.super.inj same
          exact .super (use.of_unnumbered any keyword) token
      | _ => cases same

theorem Expr.of_unnumbered_list {values values' others : List Expr} :
    List.Forall₂ (Expr.Alike likeness) values values' →
      Expr.listUnnumbered others = Expr.listUnnumbered values' →
      List.Forall₂ (Expr.Alike likeness) values others
  | .nil, same => by
      cases others with
      | nil => exact .nil
      | cons first rest => cases same
  | .cons parts rest, same => by
      cases others with
      | nil => cases same
      | cons first others =>
          obtain ⟨here, behind⟩ := List.cons.inj same
          exact .cons (parts.of_unnumbered here) (Expr.of_unnumbered_list rest behind)

end

theorem Expr.of_unnumbered_option {value value' third : Option Expr} :
    Option.Rel (Expr.Alike likeness) value value' →
      third.map Expr.unnumbered = value'.map Expr.unnumbered →
      Option.Rel (Expr.Alike likeness) value third
  | .none, same => by
      cases third with
      | none => exact .none
      | some value => cases same
  | .some parts, same => by
      cases third with
      | none => cases same
      | some value => exact .some (parts.of_unnumbered any (Option.some.inj same))

set_option linter.unusedSectionVars false in
mutual

/-- A statement is alike whatever numbers the other one has. -/
theorem Stmt.Alike.of_unnumbered {one other third : Stmt} :
    one.Alike likeness other → third.unnumbered = other.unnumbered → one.Alike likeness third
  | .expression parts, same => by
      cases third with
      | expression value => exact .expression (parts.of_unnumbered any (Stmt.expression.inj same))
      | _ => cases same
  | .print parts, same => by
      cases third with
      | print value => exact .print (parts.of_unnumbered any (Stmt.print.inj same))
      | _ => cases same
  | .var token parts, same => by
      cases third with
      | var name initializer =>
          obtain ⟨rfl, inner⟩ := Stmt.var.inj same
          exact .var token (Expr.of_unnumbered_option any parts inner)
      | _ => cases same
  | .block parts, same => by
      cases third with
      | block body => exact .block (Stmt.of_unnumbered_list parts (Stmt.block.inj same))
      | _ => cases same
  | .conditional first second third', same => by
      cases third with
      | conditional condition consequent alternative =>
          obtain ⟨front, middle, back⟩ := Stmt.conditional.inj same
          exact .conditional (first.of_unnumbered any front) (second.of_unnumbered middle)
            (Stmt.of_unnumbered_option third' back)
      | _ => cases same
  | .whileLoop first second, same => by
      cases third with
      | whileLoop condition body =>
          obtain ⟨front, back⟩ := Stmt.whileLoop.inj same
          exact .whileLoop (first.of_unnumbered any front) (second.of_unnumbered back)
      | _ => cases same
  | .forLoop first second third' fourth, same => by
      cases third with
      | forLoop initializer condition increment body =>
          obtain ⟨front, middle, behind, back⟩ := Stmt.forLoop.inj same
          exact .forLoop (Stmt.of_unnumbered_option first front)
            (Expr.of_unnumbered_option any second middle)
            (Expr.of_unnumbered_option any third' behind) (fourth.of_unnumbered back)
      | _ => cases same
  | .function parts, same => by
      cases third with
      | function declaration => exact .function (parts.of_unnumbered (Stmt.function.inj same))
      | _ => cases same
  | .returning token parts, same => by
      cases third with
      | returning keyword value =>
          obtain ⟨rfl, inner⟩ := Stmt.returning.inj same
          exact .returning token (Expr.of_unnumbered_option any parts inner)
      | _ => cases same
  | .classDecl token first second, same => by
      cases third with
      | classDecl name superclass methods =>
          obtain ⟨rfl, front, back⟩ := Stmt.classDecl.inj same
          exact .classDecl token (Expr.of_unnumbered_option any first front)
            (FunctionDecl.of_unnumbered_list second back)
      | _ => cases same

theorem Stmt.of_unnumbered_list {body body' others : List Stmt} :
    List.Forall₂ (Stmt.Alike likeness) body body' →
      Stmt.listUnnumbered others = Stmt.listUnnumbered body' →
      List.Forall₂ (Stmt.Alike likeness) body others
  | .nil, same => by
      cases others with
      | nil => exact .nil
      | cons first rest => cases same
  | .cons parts rest, same => by
      cases others with
      | nil => cases same
      | cons first others =>
          obtain ⟨here, behind⟩ := List.cons.inj same
          exact .cons (parts.of_unnumbered here) (Stmt.of_unnumbered_list rest behind)

theorem Stmt.of_unnumbered_option {statement statement' third : Option Stmt} :
    Option.Rel (Stmt.Alike likeness) statement statement' →
      Stmt.optionUnnumbered third = Stmt.optionUnnumbered statement' →
      Option.Rel (Stmt.Alike likeness) statement third
  | .none, same => by
      cases third with
      | none => exact .none
      | some statement => cases same
  | .some parts, same => by
      cases third with
      | none => cases same
      | some statement => exact .some (parts.of_unnumbered (Option.some.inj same))

theorem FunctionDecl.Alike.of_unnumbered {one other third : FunctionDecl} :
    one.Alike likeness other → third.unnumbered = other.unnumbered → one.Alike likeness third
  | .intro token listed parts, same => by
      obtain ⟨name, parameters, body⟩ := third
      obtain ⟨rfl, rfl, inner⟩ := FunctionDecl.mk.inj same
      exact .intro token listed (Stmt.of_unnumbered_list parts inner)

theorem FunctionDecl.of_unnumbered_list {methods methods' others : List FunctionDecl} :
    List.Forall₂ (FunctionDecl.Alike likeness) methods methods' →
      FunctionDecl.listUnnumbered others = FunctionDecl.listUnnumbered methods' →
      List.Forall₂ (FunctionDecl.Alike likeness) methods others
  | .nil, same => by
      cases others with
      | nil => exact .nil
      | cons first rest => cases same
  | .cons parts rest, same => by
      cases others with
      | nil => cases same
      | cons first others =>
          obtain ⟨here, behind⟩ := List.cons.inj same
          exact .cons (parts.of_unnumbered here)
            (FunctionDecl.of_unnumbered_list rest behind)

end

end Unnumbered

end Lox
