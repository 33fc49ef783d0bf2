import Lox.Evaluation.Evaluate
import Lox.Proofs.Binding.Visits

/-!
# Distinct parameters

In what is accepted, no two parameters of a function have one name. For such a function the
scope of a call has exactly one entry for each parameter, with the argument at its place. Of
two parameters with one name the scope would have only the later argument.
-/

namespace Lox

/-- No two parameters have the same name. -/
def FunctionDecl.HasDistinctParameters (declaration : FunctionDecl) : Prop :=
  (declaration.parameters.map Token.lexeme).Nodup

/-! ## Accepted functions -/

namespace Analysis

variable {analysis : Analysis} {scope : Bindings Readiness} {outer : List (Bindings Readiness)}

/-- A name that a scope has already is reported. -/
theorem absent_of_introduce {name : Token} (around : analysis.scopes = scope :: outer)
    (clean : (analysis.introduce name).faults = []) : scope.contains name.lexeme = false := by
  have declared := (advances_define (analysis.declare name) name.lexeme).clean clean
  unfold declare at declared
  rw [around] at declared
  dsimp only at declared
  split at declared
  · simp [report] at declared
  · next absent => exact Bool.eq_false_iff.mpr absent

/-- Where nothing is reported, names introduced one after another are distinct, and none of
them was there before. -/
theorem nodup_introduceAll {names : List Token} (around : analysis.scopes = scope :: outer)
    (clean : (names.foldl (fun analysis name => analysis.introduce name) analysis).faults = []) :
    (names.map Token.lexeme).Nodup ∧
      ∀ name ∈ names, scope.contains name.lexeme = false := by
  induction names generalizing analysis scope with
  | nil => exact ⟨List.nodup_nil, nofun⟩
  | cons first rest ih =>
      have absent : scope.contains first.lexeme = false :=
        absent_of_introduce around ((passes_introduceAll _ rest).clean clean)
      have entered : (analysis.introduce first).scopes =
          scope.set first.lexeme .ready :: outer := by
        rw [(passes_introduce analysis first).scopes, around, declaring_single]
      obtain ⟨distinct, new⟩ := ih entered clean
      have apart (name : Token) (later : name ∈ rest) :
          first.lexeme ≠ name.lexeme ∧ scope.contains name.lexeme = false := by
        simpa [Bindings.contains_set] using new name later
      refine ⟨List.nodup_cons.mpr ⟨?_, distinct⟩, ?_⟩
      · rintro again
        obtain ⟨name, later, same⟩ := List.mem_map.mp again
        exact (apart name later).1 same.symm
      · intro name inside
        rcases List.mem_cons.mp inside with rfl | later
        · exact absent
        · exact (apart name later).2

theorem distinct_of_functionBody {declaration : FunctionDecl} {body : Body}
    (clean : (functionBody declaration body analysis).faults = []) :
    declaration.HasDistinctParameters := by
  rw [functionBody_eq] at clean
  have entered : (analysis.enterFunction declaration body).faults = [] :=
    (passes_stmts declaration.body _).clean clean
  have opened : (analysis.withBody body).openScope.scopes = .empty :: analysis.scopes := rfl
  exact (nodup_introduceAll opened entered).1

theorem distinct_of_methodBodies {methods : List FunctionDecl}
    (clean : (methodBodies methods analysis).faults = []) :
    ∀ method ∈ methods, method.HasDistinctParameters := by
  intro method inside
  obtain ⟨earlier, later, rfl⟩ := List.append_of_mem inside
  rw [methodBodies_append, methodBodies] at clean
  exact distinct_of_functionBody ((passes_methodBodies later _).clean clean)

end Analysis

namespace Visit.Accepted

variable {final : Distances} {analysis : Analysis} {loose : List (List String)}

theorem distinct_function {declaration : FunctionDecl}
    (accepted : Accepted final ⟨.stmt (.function declaration), analysis, loose⟩) :
    declaration.HasDistinctParameters := by
  have clean : (Analysis.stmt (.function declaration) analysis).faults = [] := accepted.clean
  rw [Analysis.stmt] at clean
  exact Analysis.distinct_of_functionBody clean

theorem distinct_methods {name : Token} {superclass : Option Expr} {methods : List FunctionDecl}
    (accepted : Accepted final ⟨.stmt (.classDecl name superclass methods), analysis, loose⟩) :
    ∀ method ∈ methods, method.HasDistinctParameters := by
  have clean : (Analysis.stmt (.classDecl name superclass methods) analysis).faults = [] :=
    accepted.clean
  rw [Analysis.stmt] at clean
  exact Analysis.distinct_of_methodBodies
    ((Analysis.leaveClass_around _ superclass analysis.enclosure).2.2.clean clean)

end Visit.Accepted

/-! ## The scope of a call -/

/-- A new name comes behind all others. -/
theorem Bindings.entries_set {α : Type} {bindings : Bindings α} {name : String}
    (new : name ∉ bindings.names) (value : α) :
    (bindings.set name value).entries = bindings.entries ++ [(name, value)] := by
  obtain ⟨entries⟩ := bindings
  change name ∉ entries.map Prod.fst at new
  change update entries name value = _
  induction entries with
  | nil => rfl
  | cons entry rest ih =>
      rw [List.map_cons, List.mem_cons, not_or] at new
      rw [update, if_neg (Ne.symm new.1), ih new.2]
      rfl

/-- Among entries with distinct names, a name stands for what its own entry has. -/
theorem Bindings.get?_of_mem {α : Type} {bindings : Bindings α} (distinct : bindings.names.Nodup)
    {name : String} {value : α} (entry : (name, value) ∈ bindings.entries) :
    bindings.get? name = some value := by
  obtain ⟨entries⟩ := bindings
  change (entries.map Prod.fst).Nodup at distinct
  change lookup entries name = some value
  induction entries with
  | nil => cases entry
  | cons first rest ih =>
      rw [List.map_cons, List.nodup_cons] at distinct
      rcases List.mem_cons.mp entry with rfl | later
      · exact if_pos rfl
      · have apart : first.1 ≠ name := by
          rintro rfl
          exact distinct.1 (List.mem_map.mpr ⟨_, later, rfl⟩)
        rw [lookup, if_neg apart]
        exact ih later distinct.2

namespace Closure

variable {closure : Closure} {arguments : List Value}

/-- Bindings that have each parameter of a function once, with the argument at its place,
and no other name. No argument is left over. -/
structure Receives (closure : Closure) (arguments : List Value) (bindings : Bindings Value) :
    Prop where
  length : arguments.length = closure.declaration.parameters.length
  names : bindings.names = closure.declaration.parameters.map Token.lexeme
  distinct : bindings.names.Nodup
  placed : ∀ (place : Nat) (parameter : Token) (argument : Value),
    closure.declaration.parameters[place]? = some parameter →
    arguments[place]? = some argument → bindings.get? parameter.lexeme = some argument

/-- Distinct parameters are entered one after another. -/
theorem entries_parameterBindings (distinct : closure.declaration.HasDistinctParameters)
    (arguments : List Value) :
    (closure.parameterBindings arguments).entries =
      (closure.declaration.parameters.zip arguments).map fun entry =>
        (entry.1.lexeme, entry.2) := by
  have entered (parameters : List Token) (arguments : List Value) (bindings : Bindings Value)
      (distinct : (bindings.names ++ parameters.map Token.lexeme).Nodup) :
      ((parameters.zip arguments).foldl
        (fun bindings entry => bindings.set entry.1.lexeme entry.2) bindings).entries =
      bindings.entries ++ (parameters.zip arguments).map fun entry =>
        (entry.1.lexeme, entry.2) := by
    induction parameters generalizing arguments bindings with
    | nil => simp
    | cons first rest ih =>
        cases arguments with
        | nil => simp
        | cons value values =>
            have new : first.lexeme ∉ bindings.names := by
              intro before
              exact (List.nodup_append.mp distinct).2.2 _ before _ (List.mem_cons_self ..) rfl
            have entries := Bindings.entries_set new value
            have names : (bindings.set first.lexeme value).names =
                bindings.names ++ [first.lexeme] := by
              rw [Bindings.names, entries, List.map_append]
              rfl
            rw [List.zip_cons_cons, List.foldl_cons, ih, entries]
            · simp
            · rw [names]
              simpa using distinct
  exact entered _ arguments .empty distinct

/-- With as many arguments as parameters the scope of a call is as it should be, if the
parameters are distinct. -/
theorem receives_parameterBindings (distinct : closure.declaration.HasDistinctParameters)
    (enough : arguments.length = closure.arity) :
    closure.Receives arguments (closure.parameterBindings arguments) := by
  have entries := entries_parameterBindings distinct arguments
  have names : (closure.parameterBindings arguments).names =
      closure.declaration.parameters.map Token.lexeme := by
    rw [Bindings.names, entries, List.map_map]
    change (_ : List (Token × Value)).map (Token.lexeme ∘ Prod.fst) = _
    rw [← List.map_map, List.map_fst_zip (Nat.le_of_eq enough.symm)]
  have once : (closure.parameterBindings arguments).names.Nodup := names ▸ distinct
  refine ⟨enough, names, once, ?_⟩
  intro place parameter argument declared given
  apply Bindings.get?_of_mem once
  rw [entries, List.mem_map]
  exact ⟨(parameter, argument), List.mem_of_getElem? (List.getElem?_zip_eq_some.mpr
    ⟨declared, given⟩), rfl⟩

end Closure

end Lox
