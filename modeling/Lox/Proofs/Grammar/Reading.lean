import Lox.Proofs.Grammar.Leaves
import Lox.Proofs.Syntax.Numbers

/-!
# What a step of reading can do

One inversion lemma for each step from which the productions are built. A step
that succeeds leads from one cursor to another: the closing token stays, and
where nothing has been reported at the end, nothing was reported at the start
either. What was read on the way holds only under that condition, because
recovery from a fault passes over tokens.
-/

namespace Lox

/-! ## Cursors on the way -/

/-- One cursor leads to another, and something holds of what was read between
them. All of it is conditional on a second cursor without faults, because one
fault is enough for tokens to be passed over. -/
def Cursor.Leads (before after : Cursor) (holds : Prop) : Prop :=
  after.reported = [] →
    before.reported = [] ∧ after.stop = before.stop ∧ (before.stop.kind = .stop → holds)

namespace Cursor.Leads

variable {before middle after : Cursor} {first second : Prop}

theorem imp (leads : before.Leads after first) (weaken : first → second) :
    before.Leads after second := by
  intro quiet
  obtain ⟨quietBefore, same, holds⟩ := leads quiet
  exact ⟨quietBefore, same, fun closed => weaken (holds closed)⟩

theorem trans (front : before.Leads middle first) (back : middle.Leads after second) :
    before.Leads after (first ∧ second) := by
  intro quiet
  obtain ⟨quietMiddle, sameBack, secondHolds⟩ := back quiet
  obtain ⟨quietBefore, sameFront, firstHolds⟩ := front quietMiddle
  refine ⟨quietBefore, sameBack.trans sameFront, fun closed => ⟨firstHolds closed, ?_⟩⟩
  exact secondHolds (sameFront ▸ closed)

/-- Two cursors with the same closing token and the same faults. -/
theorem of_eq (holds : second) (same : after.stop = before.stop)
    (reported : after.reported = before.reported) : before.Leads after second :=
  fun quiet => ⟨reported ▸ quiet, same, fun _ => holds⟩

end Cursor.Leads

namespace Reading

variable {α β : Type} {before after : Cursor} {kind : Token.Kind}

/-! ## Sequences of steps -/

theorem bind_ok {step : Reading α} {next : α → Reading β} {result : β} :
    (step >>= next) before = .ok result after ↔
      ∃ value middle, step before = .ok value middle ∧ next value middle = .ok result after := by
  change EStateM.bind step next before = _ ↔ _
  unfold EStateM.bind
  cases step before with
  | ok value middle =>
      constructor
      · exact fun ran => ⟨value, middle, rfl, ran⟩
      · rintro ⟨_, _, ⟨⟩, ran⟩
        exact ran
  | error diagnostic middle =>
      constructor
      · rintro ⟨⟩
      · rintro ⟨_, _, ⟨⟩, _⟩

@[simp] theorem pure_ok {value result : α} :
    (pure value : Reading α) before = .ok result after ↔ value = result ∧ before = after := by
  change EStateM.Result.ok value before = .ok result after ↔ _
  simp

@[simp] theorem get_ok {result : Cursor} :
    (get : Reading Cursor) before = .ok result after ↔ before = result ∧ before = after := by
  change EStateM.Result.ok before before = .ok result after ↔ _
  simp

@[simp] theorem fail_ne_ok {result : α} {fault : SyntaxFault} :
    (fail fault : Reading α) before ≠ .ok result after := by
  intro succeeded
  simp [fail, failAt, bind_ok] at succeeded
  obtain ⟨_, _, _, thrown⟩ := succeeded
  cases thrown

@[simp] theorem failAt_ne_ok {result : α} {token : Token} {fault : SyntaxFault} :
    (failAt token fault : Reading α) before ≠ .ok result after := by
  intro succeeded
  cases succeeded

/-! ## Looking at tokens -/

@[simp] theorem peek_ok {token : Token} :
    peek before = .ok token after ↔ before.peek = token ∧ before = after := by
  change EStateM.Result.ok before.peek before = .ok token after ↔ _
  simp

@[simp] theorem isAtEnd_ok {answer : Bool} :
    isAtEnd before = .ok answer after ↔ before.rest.isEmpty = answer ∧ before = after := by
  change EStateM.Result.ok before.rest.isEmpty before = .ok answer after ↔ _
  simp

/-- Whether a token of a kind stands in front. -/
def front (kind : Token.Kind) (tokens : List Token) : Bool :=
  match tokens with
  | [] => false
  | token :: _ => token.kind = kind

theorem front_eq_false {tokens : List Token} :
    front kind tokens = false ↔
      ∀ token others, tokens = token :: others → decide (token.kind = kind) = false := by
  cases tokens with
  | nil => exact ⟨fun _ _ _ impossible => (nomatch impossible), fun _ => rfl⟩
  | cons token others =>
      constructor
      · rintro unseen _ _ ⟨⟩
        exact unseen
      · exact fun unseen => unseen token others rfl

@[simp] theorem sees_ok {answer : Bool} :
    sees kind before = .ok answer after ↔ front kind before.rest = answer ∧ before = after := by
  have computed : sees kind before = .ok (front kind before.rest) before := by
    simp only [sees, front]
    change EStateM.bind _ _ before = _
    unfold EStateM.bind
    change (match before.rest with | [] => _ | token :: _ => _ : Reading Bool) before = _
    cases before.rest <;> rfl
  rw [computed]
  simp

/-! ## Consuming tokens -/

@[simp] theorem skip_ok {result : Unit} :
    skip before = .ok result after ↔ { before with rest := before.rest.tail } = after := by
  change EStateM.Result.ok () { before with rest := before.rest.tail } = .ok result after ↔ _
  simp

/-- Passing over a token that was seen and is not the closing one. -/
theorem leads_skip {result : Unit} (skipped : skip before = .ok result after)
    (seen : before.peek.kind = kind) (inner : kind ≠ .stop) :
    before.Leads after (before.rest = before.peek :: after.rest ∧
      after.nextReference = before.nextReference) := by
  obtain rfl := skip_ok.mp skipped
  refine fun quiet => ⟨quiet, rfl, fun closed => ⟨?_, rfl⟩⟩
  cases rest : before.rest with
  | nil =>
      have atStop : before.peek = before.stop := by simp [Cursor.peek, rest]
      rw [atStop, closed] at seen
      exact absurd seen.symm inner
  | cons token others => simp [Cursor.peek, rest]

theorem acceptWhen_eq (wanted : Token.Kind → Bool) (before : Cursor) :
    acceptWhen wanted before =
      match before.rest with
      | [] => .ok none before
      | token :: rest =>
          if wanted token.kind then .ok (some token) { before with rest := rest }
          else .ok none before := by
  simp only [acceptWhen]
  change EStateM.bind _ _ before = _
  unfold EStateM.bind
  change (match before.rest with | [] => _ | token :: rest => _ : Reading _) before = _
  cases before.rest with
  | nil => rfl
  | cons token rest =>
      by_cases accepted : wanted token.kind = true
      · simp only [accepted, if_true]
        rfl
      · simp only [accepted]
        rfl

theorem acceptWhen_total (wanted : Token.Kind → Bool) (before : Cursor) :
    ∃ found after, acceptWhen wanted before = .ok found after := by
  rw [acceptWhen_eq]
  split
  · exact ⟨_, _, rfl⟩
  · split <;> exact ⟨_, _, rfl⟩

theorem acceptWhen_ok {wanted : Token.Kind → Bool} {found : Option Token} :
    acceptWhen wanted before = .ok found after ↔
      (found = none ∧ before = after ∧
        ∀ token rest, before.rest = token :: rest → wanted token.kind = false) ∨
      ∃ token rest, found = some token ∧ before.rest = token :: rest ∧
        wanted token.kind = true ∧ after = { before with rest := rest } := by
  rw [acceptWhen_eq]
  cases rest : before.rest with
  | nil =>
      constructor
      · rintro ⟨⟩
        exact .inl ⟨rfl, rfl, by simp⟩
      · rintro (⟨rfl, rfl, _⟩ | ⟨_, _, _, impossible, _⟩)
        · rfl
        · cases impossible
  | cons token others =>
      cases accepted : wanted token.kind with
      | true =>
          simp only [accepted, if_true]
          constructor
          · rintro ⟨⟩
            exact .inr ⟨token, others, rfl, rfl, accepted, rfl⟩
          · rintro (⟨_, _, refused⟩ | ⟨_, _, rfl, same, _, rfl⟩)
            · simp [refused token others rfl] at accepted
            · cases same
              rfl
      | false =>
          simp only [accepted, Bool.false_eq_true, if_false]
          constructor
          · rintro ⟨⟩
            exact .inl ⟨rfl, rfl, by rintro _ _ ⟨⟩; exact accepted⟩
          · rintro (⟨rfl, rfl, _⟩ | ⟨_, _, _, same, taken, _⟩)
            · rfl
            · cases same
              simp [accepted] at taken

theorem accept_ok {found : Option Token} :
    accept kind before = .ok found after ↔
      (found = none ∧ before = after ∧ front kind before.rest = false) ∨
      ∃ token rest, found = some token ∧ before.rest = token :: rest ∧
        token.kind = kind ∧ after = { before with rest := rest } := by
  rw [accept, acceptWhen_ok, front_eq_false]
  simp only [decide_eq_true_eq]

theorem accepts_ok {answer : Bool} :
    accepts kind before = .ok answer after ↔
      (answer = false ∧ before = after ∧ front kind before.rest = false) ∨
      ∃ token rest, answer = true ∧ before.rest = token :: rest ∧
        token.kind = kind ∧ after = { before with rest := rest } := by
  rw [accepts, bind_ok]
  constructor
  · rintro ⟨found, middle, accepted, returned⟩
    obtain ⟨rfl, rfl⟩ := pure_ok.mp returned
    obtain ⟨rfl, same, unseen⟩ | ⟨token, rest, rfl, shape, seen, moved⟩ := accept_ok.mp accepted
    · exact .inl ⟨rfl, same, unseen⟩
    · exact .inr ⟨token, rest, rfl, shape, seen, moved⟩
  · rintro (⟨rfl, same, unseen⟩ | ⟨token, rest, rfl, shape, seen, moved⟩)
    · exact ⟨none, _, accept_ok.mpr (.inl ⟨rfl, same, unseen⟩), rfl⟩
    · exact ⟨some token, _, accept_ok.mpr (.inr ⟨token, rest, rfl, shape, seen, moved⟩), rfl⟩

theorem expect_ok {fault : SyntaxFault} {token : Token} :
    expect kind fault before = .ok token after ↔
      ∃ rest, before.rest = token :: rest ∧ token.kind = kind ∧
        after = { before with rest := rest } := by
  rw [expect, bind_ok]
  constructor
  · rintro ⟨found, middle, accepted, returned⟩
    obtain ⟨rfl, _, _⟩ | ⟨token, rest, rfl, shape, seen, rfl⟩ := accept_ok.mp accepted
    · exact absurd returned fail_ne_ok
    · obtain ⟨rfl, rfl⟩ := pure_ok.mp returned
      exact ⟨rest, shape, seen, rfl⟩
  · rintro ⟨rest, shape, seen, rfl⟩
    exact ⟨some token, _, accept_ok.mpr (.inr ⟨token, rest, rfl, shape, seen, rfl⟩), rfl⟩

@[simp] theorem refer_ok {name : Token} {reference : Reference} :
    refer name before = .ok reference after ↔
      ⟨name, before.nextReference⟩ = reference ∧
        { before with nextReference := before.nextReference + 1 } = after := by
  change EStateM.Result.ok _ { before with nextReference := before.nextReference + 1 } =
    .ok reference after ↔ _
  simp

/-! ## Steps on the way

The same steps as what they contribute to a longer reading. -/

/-- Consuming a token that has to come next. -/
theorem leads_expect {fault : SyntaxFault} {token : Token}
    (expected : expect kind fault before = .ok token after) :
    before.Leads after (token.kind = kind ∧ before.rest = token :: after.rest ∧
      after.nextReference = before.nextReference) := by
  obtain ⟨rest, shape, seen, rfl⟩ := expect_ok.mp expected
  exact .of_eq ⟨seen, shape, rfl⟩ rfl rfl

theorem leads_acceptWhen {wanted : Token.Kind → Bool} {token : Token}
    (accepted : acceptWhen wanted before = .ok (some token) after) :
    before.Leads after (wanted token.kind = true ∧ before.rest = token :: after.rest ∧
      after.nextReference = before.nextReference) := by
  obtain ⟨impossible, _⟩ | ⟨_, rest, ⟨⟩, shape, seen, rfl⟩ := acceptWhen_ok.mp accepted
  · cases impossible
  · exact .of_eq ⟨seen, shape, rfl⟩ rfl rfl

theorem acceptWhen_none {wanted : Token.Kind → Bool}
    (refused : acceptWhen wanted before = .ok none after) : before = after := by
  obtain ⟨_, same, _⟩ | ⟨_, _, impossible, _⟩ := acceptWhen_ok.mp refused
  · exact same
  · cases impossible

theorem leads_accepts (accepted : accepts kind before = .ok true after) :
    before.Leads after (∃ token, token.kind = kind ∧ before.rest = token :: after.rest ∧
      after.nextReference = before.nextReference) := by
  obtain ⟨impossible, _⟩ | ⟨token, rest, _, shape, seen, rfl⟩ := accepts_ok.mp accepted
  · cases impossible
  · exact .of_eq ⟨token, seen, shape, rfl⟩ rfl rfl

theorem accepts_false (refused : accepts kind before = .ok false after) : before = after := by
  obtain ⟨_, same, _⟩ | ⟨_, _, impossible, _⟩ := accepts_ok.mp refused
  · exact same
  · cases impossible

theorem leads_refer {name : Token} {reference : Reference}
    (referred : refer name before = .ok reference after) :
    before.Leads after (reference = ⟨name, before.nextReference⟩ ∧ after.rest = before.rest ∧
      after.nextReference = before.nextReference + 1) := by
  obtain ⟨rfl, rfl⟩ := refer_ok.mp referred
  exact .of_eq ⟨rfl, rfl, rfl⟩ rfl rfl

/-! ## Steps whose outcome is known -/

section Known

variable {middle : Cursor} {token : Token} {rest : List Token}

theorem bind_of_ok {step : Reading α} {next : α → Reading β} {value : α}
    (ran : step before = .ok value middle) : (step >>= next) before = next value middle := by
  change EStateM.bind step next before = _
  simp only [EStateM.bind, ran]

theorem expect_of_front {fault : SyntaxFault} (shape : before.rest = token :: rest)
    (seen : token.kind = kind) :
    expect kind fault before = .ok token { before with rest := rest } :=
  expect_ok.mpr ⟨rest, shape, seen, rfl⟩

theorem accepts_of_front (shape : before.rest = token :: rest) (seen : token.kind = kind) :
    accepts kind before = .ok true { before with rest := rest } :=
  accepts_ok.mpr (.inr ⟨token, rest, rfl, shape, seen, rfl⟩)

theorem accepts_of_unseen (unseen : front kind before.rest = false) :
    accepts kind before = .ok false before :=
  accepts_ok.mpr (.inl ⟨rfl, rfl, unseen⟩)

theorem front_cons : front kind (token :: rest) = decide (token.kind = kind) := rfl

theorem sees_eq : sees kind before = .ok (front kind before.rest) before :=
  sees_ok.mpr ⟨rfl, rfl⟩

theorem peek_of_front (shape : before.rest = token :: rest) : peek before = .ok token before :=
  peek_ok.mpr ⟨by simp [Cursor.peek, shape], rfl⟩

theorem skip_of_front (shape : before.rest = token :: rest) :
    skip before = .ok () { before with rest := rest } :=
  skip_ok.mpr (by rw [shape]; rfl)

theorem bind_of_error {step : Reading α} {next : α → Reading β} {fault : Diagnostic}
    (ran : step before = .error fault middle) :
    (step >>= next) before = .error fault middle := by
  change EStateM.bind step next before = _
  simp only [EStateM.bind, ran]

/-- A step may be replaced by one that does the same from another cursor. -/
theorem bind_of_eq {step further : Reading α} {next : α → Reading β}
    (same : step before = further middle) :
    (step >>= next) before = (further >>= next) middle := by
  change EStateM.bind step next before = EStateM.bind further next middle
  simp only [EStateM.bind, same]

end Known

end Reading

end Lox
