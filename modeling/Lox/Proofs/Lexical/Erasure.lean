import Lox.Proofs.Lexical.Evaluate

/-!
# Values without environments

A value is erased by taking the environments out of all functions in it. Nothing
that a program can do to a value depends on them, apart from calling it.
-/

namespace Lox

/-! ## Maps -/

namespace Bindings

variable {α β : Type}

/-- What every name stands for, changed in the same way. -/
def map (change : α → β) (bindings : Bindings α) : Bindings β :=
  ⟨bindings.entries.map fun entry => (entry.1, change entry.2)⟩

@[simp] theorem map_empty (change : α → β) : (empty : Bindings α).map change = .empty := rfl

@[simp] theorem get?_map (change : α → β) (bindings : Bindings α) (name : String) :
    (bindings.map change).get? name = (bindings.get? name).map change := by
  obtain ⟨entries⟩ := bindings
  simp only [get?, map]
  induction entries with
  | nil => rfl
  | cons entry rest ih =>
      by_cases same : entry.1 = name <;> simp [lookup, same, ih]

theorem map_set (change : α → β) (bindings : Bindings α) (name : String) (value : α) :
    (bindings.set name value).map change = (bindings.map change).set name (change value) := by
  obtain ⟨entries⟩ := bindings
  simp only [set, map, mk.injEq]
  induction entries with
  | nil => rfl
  | cons entry rest ih =>
      by_cases same : entry.1 = name <;> simp [update, same, ih]

end Bindings

/-! ## Erasure -/

/-- A function without its environment. -/
def Closure.erased (closure : Closure) : Closure :=
  { closure with environment := [] }

/-- A class, without what it inherits, without the environments of its methods. -/
def ClassLayer.erased (layer : ClassLayer) : ClassLayer :=
  { layer with methods := layer.methods.map Closure.erased }

/-- A class without the environments of its methods. -/
def Class.erased (cls : Class) : Class :=
  ⟨cls.own.erased, cls.inherited.map ClassLayer.erased⟩

/-- An object whose class is erased. -/
def Instance.erased (object : Instance) : Instance :=
  { object with cls := object.cls.erased }

/-- A value without the environments of the functions in it. -/
def Value.erased : Value → Value
  | .function closure => .function closure.erased
  | .cls found => .cls found.erased
  | .object held => .object held.erased
  | value => value

/-- A flow whose value is erased. -/
def Flow.erased : Flow → Flow
  | .normal => .normal
  | .returned value => .returned value.erased

/-- Something to call, without environments. -/
def Callable.erased : Callable → Callable
  | .native host => .native host
  | .function closure => .function closure.erased
  | .cls found => .cls found.erased

/-! ## Classes -/

namespace Class

theorem erased_extend (own : ClassLayer) (superclass : Option Class) :
    (extend own superclass).erased = extend own.erased (superclass.map erased) := by
  cases superclass with
  | none => rfl
  | some cls => rfl

@[simp] theorem name_erased (cls : Class) : cls.erased.name = cls.name := rfl

theorem method?_erased (cls : Class) (name : String) :
    cls.erased.method? name = (cls.method? name).map Closure.erased := by
  have found (layers : List ClassLayer) :
      (layers.map ClassLayer.erased).findSome? (fun layer => layer.methods.get? name) =
        (layers.findSome? fun layer => layer.methods.get? name).map Closure.erased := by
    induction layers with
    | nil => rfl
    | cons layer rest ih =>
        rw [List.map_cons, List.findSome?_cons, List.findSome?_cons]
        simp only [ClassLayer.erased, Bindings.get?_map]
        cases layer.methods.get? name with
        | none => exact ih
        | some method => rfl
  exact found cls.chain

theorem initializer?_erased (cls : Class) :
    cls.erased.initializer? = cls.initializer?.map Closure.erased :=
  cls.method?_erased initializerName

@[simp] theorem arity_erased (cls : Class) : cls.erased.arity = cls.arity := by
  unfold arity
  rw [initializer?_erased]
  cases cls.initializer? <;> rfl

end Class

@[simp] theorem Callable.arity_erased (callable : Callable) :
    callable.erased.arity = callable.arity := by
  cases callable with
  | native _ => rfl
  | function _ => rfl
  | cls cls => exact cls.arity_erased

/-! ## Values -/

namespace Value

@[simp] theorem isTruthy_erased (value : Value) : value.erased.isTruthy = value.isTruthy := by
  cases value <;> rfl

@[simp] theorem decides_erased (value : Value) (kind : Token.Kind) :
    value.erased.decides kind = value.decides kind := by
  unfold decides
  rw [isTruthy_erased]

@[simp] theorem equals_erased (one other : Value) :
    one.erased.equals other.erased = one.equals other := by
  cases one <;> cases other <;> rfl

@[simp] theorem pieces_erased (value : Value) : value.erased.pieces = value.pieces := by
  cases value <;> rfl

theorem callable?_erased (value : Value) :
    value.erased.callable? = value.callable?.map Callable.erased := by
  cases value <;> rfl

@[simp] theorem erased_literal (literal : Literal) : literal.value.erased = literal.value := by
  cases literal <;> rfl

/-- A result of an operator has no functions in it. -/
theorem add_erased (one other : Value) :
    one.erased.add other.erased = (one.add other).map erased := by
  cases one <;> cases other <;> rfl

theorem unary_erased (kind : Token.Kind) (operand : Value) :
    operand.erased.unary kind = (operand.unary kind).map erased := by
  unfold unary
  rw [isTruthy_erased]
  split
  · cases operand <;> rfl
  · rfl
  · rfl

theorem numericOperation_erased {kind : Token.Kind} {operation : Float → Float → Value}
    (known : numericOperation? kind = some operation) (one other : Float) :
    (operation one other).erased = operation one other := by
  unfold numericOperation? at known
  split at known <;> cases known <;> rfl

theorem binary_erased (kind : Token.Kind) (left right : Value) :
    left.erased.binary kind right.erased = (left.binary kind right).map erased := by
  unfold binary
  rw [equals_erased, add_erased]
  split
  · rfl
  · rfl
  · rfl
  · cases known : numericOperation? kind with
    | none => rfl
    | some operation =>
        cases left <;> cases right <;> try rfl
        exact congrArg Except.ok (numericOperation_erased known _ _).symm

end Value

end Lox
