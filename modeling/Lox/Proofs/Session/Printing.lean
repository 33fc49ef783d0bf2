import Lox.Proofs.Output.Refusal
import Lox.Proofs.Session.Joining
import Lox.Proofs.Token.Longest

/-!
# Printing an expression

An expression can be evaluated by itself, and a program can print it. The program is
read by other rules, and its names are bound before it runs. Both come to the same,
because no rule looks at what stands behind an expression, and outside of all scopes
there is nothing to bind a name to.
-/

namespace Lox

/-! ## The tokens of a `print` -/

namespace Segment

theorem ofText_print (source : List Char) :
    ofText ('p' :: 'r' :: 'i' :: 'n' :: 't' :: ' ' :: source) =
      .lexeme (.keyword .print) Keyword.print.spelling :: .blank ' ' :: ofText source := by
  rfl

end Segment

/-- A text that prints the value of an expression. -/
def printing (source : String) : String :=
  "print " ++ source ++ "\n" ++ ";"

theorem segments_print (source : String) :
    Segment.ofText ("print " ++ source).toList =
      .lexeme (.keyword .print) Keyword.print.spelling :: .blank ' ' ::
        Segment.ofText source.toList := by
  rw [String.toList_append]
  exact Segment.ofText_print source.toList

theorem faults_print {source : String} (clean : (scan source).2 = []) :
    (scan ("print " ++ source)).2 = [] := by
  rw [scan_faults] at clean ⊢
  rw [segments_print]
  simpa [Segment.isFaulty] using clean

theorem words_print (source : String) :
    words ("print " ++ source) =
      ⟨.keyword .print, String.ofList Keyword.print.spelling, 1⟩ :: words source := by
  unfold words
  rw [segments_print]
  rfl

theorem words_printing {source : String} (clean : (scan source).2 = []) :
    words (printing source) =
      ⟨.keyword .print, String.ofList Keyword.print.spelling, 1⟩ ::
        (words source ++ [⟨.mark .semicolon, ";", 1 + (lineFeeds ("print " ++ source) + 1)⟩]) := by
  unfold printing
  rw [words_joined (faults_print clean), words_print]
  rfl

theorem faults_printing {source : String} (clean : (scan source).2 = []) :
    (scan (printing source)).2 = [] :=
  faults_joined (faults_print clean) rfl

/-- A token of a text that is spelled like a keyword is that keyword. -/
theorem Segment.Tile.kind_of_spelling {source : List Char} {segments : List Segment}
    (tile : Tile source segments) {line : Nat} {token : Token}
    (inside : token ∈ tokens line segments) {keyword : Keyword}
    (spelled : token.lexeme.toList = keyword.spelling) : token.kind = .keyword keyword := by
  induction tile generalizing line with
  | done => cases inside
  | @next after segment rest stands _ ih =>
      rw [tokens, List.mem_append] at inside
      cases inside with
      | inr later => exact ih later
      | inl here =>
          cases segment with
          | lexeme kind text =>
              generalize (Segment.lexeme kind text).text ++ after = source at stands
              obtain rfl :
                  token = ⟨kind, String.ofList text, line + (lexeme kind text).lineFeeds⟩ := by
                simpa [item?, Item.token?, eq_comm] using here
              cases stands with
              | lexeme _ longest =>
                  have lexeme := longest.lexeme
                  rw [String.toList_ofList] at spelled
                  rw [spelled] at lexeme
                  exact lexeme.kind_unique (.keyword keyword)
          | _ => simp [item?, Item.token?] at here

/-! ## Names outside of all scopes -/

namespace Analysis

variable {analysis : Analysis}

/-- Outside of all scopes every name is left to the globals. -/
theorem bindVariable_outside (outside : analysis.scopes = []) (reference : Reference) :
    analysis.bindVariable reference = analysis := by
  simp [bindVariable, isPending, bind, outside]

theorem bind_outside (outside : analysis.scopes = []) (reference : Reference) :
    analysis.bind reference = analysis := by
  simp [bind, outside]

mutual

/-- Outside of all scopes an expression without `this` and `super` is bound as it is. -/
theorem expr_outside (outside : analysis.scopes = []) : (value : Expr) → value.Placed →
    (∀ token, .kept token ∈ value.leaves → token.IsOrdinary) → analysis.expr value = analysis
  | .literal _, _, _ => by rw [expr]
  | .grouping inner, placed, plain => by
      rw [Expr.Placed] at placed
      rw [expr]
      exact expr_outside outside inner placed fun token inside =>
        plain token (by simp [inside])
  | .unary _ operand, placed, plain => by
      rw [Expr.Placed] at placed
      rw [expr]
      exact expr_outside outside operand placed fun token inside =>
        plain token (by simp [inside])
  | .binary left _ right, placed, plain => by
      rw [Expr.Placed] at placed
      rw [expr, expr_outside outside left placed.1 fun token inside =>
        plain token (by simp [inside])]
      exact expr_outside outside right placed.2 fun token inside =>
        plain token (by simp [inside])
  | .logical left _ right, placed, plain => by
      rw [Expr.Placed] at placed
      rw [expr, expr_outside outside left placed.1 fun token inside =>
        plain token (by simp [inside])]
      exact expr_outside outside right placed.2 fun token inside =>
        plain token (by simp [inside])
  | .variable reference, _, _ => by
      rw [expr]
      exact bindVariable_outside outside reference
  | .assign reference value, placed, plain => by
      rw [Expr.Placed] at placed
      rw [expr, expr_outside outside value placed.2 fun token inside =>
        plain token (by simp [inside])]
      exact bind_outside outside reference
  | .call callee _ arguments, placed, plain => by
      rw [Expr.Placed] at placed
      rw [expr, expr_outside outside callee placed.1 fun token inside =>
        plain token (by simp [inside])]
      exact exprs_outside outside arguments placed.2 fun token inside =>
        plain token (by simp [inside])
  | .get object _, placed, plain => by
      rw [Expr.Placed] at placed
      rw [expr]
      exact expr_outside outside object placed fun token inside =>
        plain token (by simp [inside])
  | .set object _ value, placed, plain => by
      rw [Expr.Placed] at placed
      rw [expr, expr_outside outside value placed.2 fun token inside =>
        plain token (by simp [inside])]
      exact expr_outside outside object placed.1 fun token inside =>
        plain token (by simp [inside])
  | .this reference, placed, plain => by
      rw [Expr.Placed] at placed
      exact absurd placed (plain reference.name (by simp)).1
  | .super reference _, placed, plain => by
      rw [Expr.Placed] at placed
      exact absurd placed (plain reference.name (by simp)).2

theorem exprs_outside (outside : analysis.scopes = []) : (values : List Expr) →
    Expr.ListPlaced values → (∀ token, .kept token ∈ Expr.listLeaves values → token.IsOrdinary) →
    analysis.exprs values = analysis
  | [], _, _ => by rw [exprs]
  | [value], placed, plain => by
      rw [Expr.ListPlaced] at placed
      rw [exprs, exprs]
      exact expr_outside outside value placed.1 fun token inside =>
        plain token (by simpa using inside)
  | first :: second :: rest, placed, plain => by
      rw [Expr.ListPlaced] at placed
      rw [exprs, expr_outside outside first placed.1 fun token inside =>
        plain token (by simp [inside])]
      exact exprs_outside outside (second :: rest) placed.2 fun token inside =>
        plain token (by rw [Expr.listLeaves]; simp [inside])

end

end Analysis

/-! ## Reading and binding a `print` -/

variable {source : String} {next supply : Nat} {value : Expr}

/-- An expression is also read where it is printed, whichever numbers are free. -/
theorem read_printing (accepted : (readExpression source next).1 = .ok value) (supply : Nat) :
    ∃ value', (readProgram (printing source) supply).1 = .ok [.print value'] ∧
      value.Alike .anyNumber value' := by
  obtain ⟨clean, read⟩ := readExpression_ok_iff.mp accepted
  have expression := (Grammar.sound_readExpression read).1
  rw [contents_scan] at expression
  -- The rules of expressions do not look at the semicolon.
  have further (stop : Token) : Grammar.Expression (words source ++ [stop]) value [stop] :=
    Grammar.extends_expression expression
  have print : Grammar.Program (words (printing source)) [.print value] := by
    rw [words_printing clean]
    refine .more (.declaration Grammar.Statement (fun _ _ _ _ part => part) (.plain ?_)) .none
    exact .print rfl (further _) rfl
  rw [← contents_scan] at print
  obtain ⟨program, found, same⟩ := Grammar.complete_readProgram supply print
  have itself : value.Alike .anyNumber value := by
    have alike := alike_readExpression_text source next next
    rw [accepted] at alike
    cases alike with
    | ok alike => exact alike
  have alike := Stmt.of_unnumbered_list (fun _ _ => trivial)
    (.cons (.print itself) .nil :
      List.Forall₂ (Stmt.Alike .anyNumber) [.print value] [.print value]) same
  cases alike with
  | cons first rest =>
      cases rest
      cases first with
      | print alike => exact ⟨_, readProgram_ok_iff.mpr ⟨faults_printing clean, found⟩, alike⟩

/-- The tokens of a text hold neither `this` nor `super`. -/
def Receiverless (source : String) : Prop :=
  ∀ token ∈ (scan source).1, token.kind ≠ .keyword .this ∧ token.kind ≠ .keyword .super

theorem Receiverless.printing (receiverless : Receiverless source) (clean : (scan source).2 = []) :
    ∀ token ∈ words (printing source), token.IsOrdinary := by
  intro token inside
  have kinds : token.kind ≠ .keyword .this ∧ token.kind ≠ .keyword .super := by
    rw [words_printing clean, List.mem_cons, List.mem_append, List.mem_singleton] at inside
    rcases inside with rfl | own | rfl
    · exact ⟨nofun, nofun⟩
    · apply receiverless
      rw [scan_tokens]
      exact List.mem_append_left _ own
    · exact ⟨nofun, nofun⟩
  have tile := Segment.tile_ofText (Lox.printing source).toList
  constructor
  · intro spelled
    exact kinds.1 (tile.kind_of_spelling inside (by rw [spelled]; rfl))
  · intro spelled
    exact kinds.2 (tile.kind_of_spelling inside (by rw [spelled]; rfl))

/-- A leaf that keeps a token stands for that token. -/
theorem Leaf.mem_of_matches {leaves : List Leaf} {tokens : List Token} {token : Token}
    (spells : List.Forall₂ Leaf.Matches leaves tokens) (kept : .kept token ∈ leaves) :
    token ∈ tokens := by
  induction spells with
  | nil => cases kept
  | cons matched _ ih =>
      cases kept with
      | head =>
          rw [Leaf.Matches] at matched
          exact matched ▸ .head _
      | tail _ later => exact .tail _ (ih later)

/-- Binding a `print` finds no fault and notes nothing. -/
theorem bound_printing (receiverless : Receiverless source) (clean : (scan source).2 = [])
    (read : (readProgram (printing source) supply).1 = .ok [.print value]) (distances : Distances) :
    bindProgram [.print value] distances = ([], distances) := by
  have placed : value.Placed := by
    have placed := (Session.placed_of_read read).1
    rw [Stmt.ListPlaced, Stmt.Placed] at placed
    exact placed.1
  have spells := Grammar.spells_program
    (Grammar.sound_readProgram (readProgram_ok_iff.mp read).2).1
  rw [contents_scan] at spells
  have plain : ∀ token, .kept token ∈ value.leaves → token.IsOrdinary := by
    intro token inside
    have leaf : .kept token ∈ Stmt.listLeaves [.print value] := by
      simp [inside]
    exact receiverless.printing clean token (Leaf.mem_of_matches spells leaf)
  unfold bindProgram
  simp only [Analysis.stmts, Analysis.stmt]
  rw [Analysis.expr_outside rfl value placed plain]
  rfl

/-! ## Running a `print` -/

section Running

variable {machine shown : Machine} {steps : Nat} {halt : Halt} {result : Value}

/-- A `print` that shows a value on a sink that refuses nothing. -/
theorem interpret_print_ok (policy : shown.sink.policy = .unlimited)
    (ran : evaluate steps value machine = .ok result shown) :
    interpret (steps + 1) [.print value] machine = .ok ()
      { shown with sink := ⟨.unlimited, shown.sink.accepted ++ (result.text ++ "\n")⟩ } := by
  have sink : shown.sink = ⟨.unlimited, shown.sink.accepted⟩ := by rw [← policy]
  have printed : Run.print result shown = .ok ()
      { shown with sink := ⟨.unlimited, shown.sink.accepted ++ (result.text ++ "\n")⟩ } := by
    rw [Run.print, sink, Sink.writeAll_unlimited]
    simp [Value.text, String.join_append]
  simp only [interpret, execute, Run.step_bind, ran, printed]
  rfl

theorem interpret_print_error (ran : evaluate steps value machine = .error halt shown) :
    interpret (steps + 1) [.print value] machine = .error halt shown := by
  simp only [interpret, execute, Run.step_bind, ran]

end Running

namespace Session

/-- How an expression ends that is evaluated, and one that is printed: with a value that
is shown then on a line of its own, or with the same failure. But for that line the
sessions behind them differ in nothing but the numbers of uses of names. -/
inductive PrintsAlike :
    EStateM.Result Failure Session Value → EStateM.Result Failure Session Unit → Prop where
  | ok {value : Value} {after after' : Session} {number : Nat → Nat → Prop}
      (output : after'.output = after.output ++ value.text ++ "\n")
      (same : after.Alike number (after'.withSink after.machine.sink)) :
      PrintsAlike (.ok value after) (.ok () after')
  | error {failure : Failure} {after after' : Session} {number : Nat → Nat → Prop}
      (output : after'.output = after.output) (same : after.Alike number after') :
      PrintsAlike (.error failure after) (.error failure after')

/-- An expression is read, and then evaluated where the session is. -/
theorem evaluate_eq {session : Session} (steps : Nat)
    (accepted : (readExpression source session.nextReference).1 = .ok value) :
    Session.evaluate steps source session =
      match Lox.evaluate steps value session.machine with
      | .ok result machine =>
          .ok result ⟨machine, (readExpression source session.nextReference).2⟩
      | .error halt machine =>
          .error (.ofHalt halt) ⟨machine, (readExpression source session.nextReference).2⟩ := by
  unfold Session.evaluate
  rw [step_bind, reading_eq, accepted]
  unfold running
  dsimp only
  cases Lox.evaluate steps value session.machine <;> rfl

/-- An expression without `this` and `super` can be evaluated by itself, or read behind
`print` and run. Nothing is then wrong with the program, and both end alike, whichever
numbers are free for each of them. -/
theorem evaluate_as_printed (time : Native → Nat → Except String Float) (past : List Request)
    (steps : Nat) (source : String) (expression : Expr) (supply : Nat) :
    let session := (Session.start (Host.ofTime time) .unlimited).reach past
    let other := { session with nextReference := supply }
    (readExpression source session.nextReference).1 = .ok expression → Receiverless source →
    session.nextReference ≤ supply →
    (∃ program, other.Accepts (printing source) program) ∧
      PrintsAlike (session.evaluate steps source)
        (Session.run (steps + 1) (printing source) other) := by
  intro session other accepted receiverless later
  obtain ⟨number, alike⟩ := (alike_start time .unlimited).reach past
  have first : (Session.start (Host.ofTime time) .unlimited).machine.sink.policy = .unlimited := rfl
  have policy : session.machine.sink.policy = .unlimited :=
    (lasting_policy .unlimited).reach first past
  have clean := (readExpression_ok_iff.mp accepted).1
  obtain ⟨printed, read, same⟩ := read_printing accepted supply
  have bound := bound_printing receiverless clean read session.machine.distances
  have faultless : (bindProgram [.print printed] other.machine.distances).1 = [] := by
    rw [bound]
  refine ⟨⟨_, read, faultless⟩, ?_⟩
  -- The numbers of the expression stand for those it gets behind `print`.
  have fresh := fresh_readExpression_text accepted
  have fresh' : Fresh supply (readProgram (printing source) supply).2 printed.numbers := by
    have fresh := (placed_of_read read).2
    simpa using fresh
  have numbered := Likeness.paired_extended number same.numbers.length_eq
  have supplied : session.Alike number other := alike.supply (Nat.le_refl _) later
  have extended := supplied.extend fresh fresh'
  have evaluated := (correspondsWithin _ steps).evaluate (same.renumber numbered) extended.machine
  have back := (restoresWithin steps).evaluate expression session.machine
  have back' := (restoresWithin steps).evaluate printed session.machine
  have ran' := run_eq other (steps + 1) read faultless
  have unbound : other.bound [.print printed] = session.machine := by
    simp only [Session.bound, other, bound]
  rw [evaluate_eq steps accepted, ran', unbound]
  unfold Run.behind at back back'
  generalize ran : Lox.evaluate steps expression session.machine = result,
    shown : Lox.evaluate steps printed session.machine = result' at evaluated back back' ⊢
  cases evaluated with
  | error halts machines =>
      obtain rfl := halt_eq halts
      have behind := extended.run machines back back'
      dsimp only at behind
      rw [interpret_print_error shown]
      exact .error (congrArg Sink.accepted machines.sink).symm behind
  | @ok value value' after after' values machines =>
      have behind := extended.run machines back back'
      dsimp only at behind
      have policy' : after'.sink.policy = .unlimited := back'.policy.trans policy
      have text : value.text = value'.text := by rw [Value.text, Value.text, values.pieces]
      rw [interpret_print_ok policy' shown]
      constructor
      · simp only [output, text, machines.sink, String.append_assoc]
      · simp only [withSink, machines.sink]
        exact behind

/-- A text holds an expression whichever numbers are free. -/
theorem exists_expression (held : (readExpression source 0).1.toOption.isSome = true) (next : Nat) :
    ∃ expression, (readExpression source next).1 = .ok expression := by
  have alike := alike_readExpression_text source 0 next
  generalize (readExpression source 0).1 = found at alike held
  generalize (readExpression source next).1 = again at alike
  cases alike with
  | ok _ => exact ⟨_, rfl⟩
  | error _ => cases held

/-- A function that prints is declared, and called twice in an expression that is read
with other numbers free where it is printed. -/
theorem evaluate_as_printed_calls : ∃ expression,
    let session := silent.reach [.run 9 "fun f(x) { print x; return x; }"]
    let other := { session with nextReference := session.nextReference + 3 }
    (readExpression "f(nil) == f(true)" session.nextReference).1 = .ok expression ∧
      Receiverless "f(nil) == f(true)" ∧ session.nextReference ≤ session.nextReference + 3 ∧
      (∃ program, other.Accepts (printing "f(nil) == f(true)") program) ∧
      PrintsAlike (session.evaluate 9 "f(nil) == f(true)")
        (Session.run 10 (printing "f(nil) == f(true)") other) := by
  have held : (readExpression "f(nil) == f(true)" 0).1.toOption.isSome = true := by
    decide +kernel
  have receiverless : Receiverless "f(nil) == f(true)" := by
    unfold Receiverless
    decide +kernel
  have later (next : Nat) : next ≤ next + 3 := Nat.le_add_right next 3
  obtain ⟨expression, accepted⟩ := exists_expression held
    (silent.reach [.run 9 "fun f(x) { print x; return x; }"]).nextReference
  exact ⟨expression, accepted, receiverless, later _,
    evaluate_as_printed _ _ 9 _ expression _ accepted receiverless (later _)⟩

end Session

end Lox
