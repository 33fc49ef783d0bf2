import Lox.Proofs.Grammar.Exactness
import Lox.Proofs.Grammar.Supply

/-!
# Faults come in the order of the tokens

A fault is blamed on a token that is not yet passed over when reading starts on the
part with the fault in it. Recovery passes over at least one token, so the next fault
is blamed on a later one. Only the closing token cannot be passed over. It can be
blamed for several parts that are still open, each of which has an opening token of its
own, so there are never more faults than tokens.
-/

namespace Lox

/-- A fault together with the tokens from the one that it is blamed on. The closing
token stands behind all of them. -/
structure Blame where
  ahead : List Token
  fault : SyntaxFault

/-- The diagnostic of a blame, given the closing token. -/
def Blame.diagnostic (stop : Token) (blame : Blame) : Diagnostic :=
  .syntactic (blame.ahead.headD stop) blame.fault

/-- Of two places, each given by the tokens from there on, the first comes before the
second, or both are at the closing token. -/
def Precedes (one other : List Token) : Prop :=
  other.length < one.length ∨ one = [] ∧ other = []

theorem Precedes.suffix {one other further : List Token} (precedes : Precedes one other)
    (suffix : further <:+ other) : Precedes one further := by
  rcases precedes with shorter | ⟨rfl, rfl⟩
  · exact .inl (Nat.lt_of_le_of_lt suffix.length_le shorter)
  · exact .inr ⟨rfl, List.suffix_nil.mp suffix⟩

namespace Grammar

/-- What is blamed no later than where reading stopped comes before where it goes on. -/
theorem precedes_synchronized {ahead rest : List Token} (suffix : rest <:+ ahead) :
    Precedes ahead (synchronized rest) := by
  have shorter := (synchronized_suffix rest).length_le
  have within := suffix.length_le
  cases rest with
  | nil =>
      cases ahead with
      | nil => exact .inr ⟨rfl, rfl⟩
      | cons token others => exact .inl (Nat.succ_pos _)
  | cons token others =>
      simp only [List.tail_cons, List.length_cons] at shorter within
      exact .inl (by omega)

end Grammar

/-! ## Inside an expression -/

namespace Contract

/-- Nothing is reported, and a failure is blamed on a token between the cursors. -/
def quiet : Contract where
  passes before after :=
    after.rest <:+ before.rest ∧ after.stop = before.stop ∧ after.reported = before.reported
  fails before fault after :=
    (after.rest <:+ before.rest ∧ after.stop = before.stop ∧ after.reported = before.reported) ∧
      ∃ blame : Blame, fault = blame.diagnostic before.stop ∧ after.rest <:+ blame.ahead ∧
        blame.ahead <:+ before.rest

instance : quiet.Assigns where
  refl cursor := ⟨List.suffix_refl _, rfl, rfl⟩
  trans first second :=
    ⟨second.1.trans first.1, second.2.1.trans first.2.1, second.2.2.trans first.2.2⟩
  behind := by
    rintro before middle fault after first ⟨second, blame, rfl, past, inside⟩
    exact ⟨⟨second.1.trans first.1, second.2.1.trans first.2.1, second.2.2.trans first.2.2⟩,
      blame, by rw [first.2.1], past, inside.trans first.1⟩
  move cursor _ suffix := ⟨suffix, rfl, rfl⟩
  number cursor := ⟨List.suffix_refl _, rfl, rfl⟩
  blame cursor fault := ⟨⟨List.suffix_refl _, rfl, rfl⟩, ⟨cursor.rest, fault⟩, rfl,
    List.suffix_refl _, List.suffix_refl _⟩
  target := by
    rintro before after equals rest shape passed
    have suffix : rest <:+ before.rest := shape ▸ List.suffix_cons equals rest
    exact ⟨⟨passed.1.trans suffix, passed.2⟩, ⟨before.rest, .assignmentTarget⟩,
      by simp [Blame.diagnostic, shape], passed.1.trans suffix, List.suffix_refl _⟩

/-! ## Inside a statement -/

/-- What is reported between two cursors: faults in the order of their tokens, and no
more of them than tokens were passed over. -/
structure Reports (before after : Cursor) (blames : List Blame) : Prop where
  rest : after.rest <:+ before.rest
  stop : after.stop = before.stop
  reported : after.reported = before.reported ++ blames.map (Blame.diagnostic before.stop)
  inside : ∀ blame ∈ blames, blame.ahead <:+ before.rest
  ordered : blames.Pairwise fun one other => Precedes one.ahead other.ahead
  few : blames.length + after.rest.length ≤ before.rest.length

namespace Reports

variable {before middle after : Cursor} {first second : List Blame}

theorem none (rest : after.rest <:+ before.rest) (stop : after.stop = before.stop)
    (reported : after.reported = before.reported) : Reports before after [] where
  rest := rest
  stop := stop
  reported := by simp [reported]
  inside := by simp
  ordered := .nil
  few := by simpa using rest.length_le

/-- All that is reported first comes before a cursor, so it also comes before what is
reported from there on. -/
theorem append (front : Reports before middle first)
    (passed : ∀ blame ∈ first, Precedes blame.ahead middle.rest)
    (back : Reports middle after second) : Reports before after (first ++ second) where
  rest := back.rest.trans front.rest
  stop := back.stop.trans front.stop
  reported := by simp [back.reported, front.reported, front.stop]
  inside blame membership := by
    rcases List.mem_append.mp membership with here | there
    · exact front.inside blame here
    · exact (back.inside blame there).trans front.rest
  ordered := by
    refine List.pairwise_append.mpr ⟨front.ordered, back.ordered, ?_⟩
    intro one here other there
    exact (passed one here).suffix (back.inside other there)
  few := by
    have one := front.few
    have other := back.few
    simp only [List.length_append]
    omega

end Reports

/-- A failure after what was reported before it. -/
structure Stops (before : Cursor) (fault : Diagnostic) (after : Cursor) (blames : List Blame)
    (last : Blame) : Prop extends Reports before after blames where
  last_eq : fault = last.diagnostic before.stop
  past : after.rest <:+ last.ahead
  last_inside : last.ahead <:+ before.rest
  last_behind : ∀ blame ∈ blames, Precedes blame.ahead last.ahead

/-- Faults are reported in order, and a failure comes behind all of them. -/
def orderly : Contract where
  passes before after :=
    ∃ blames, Reports before after blames ∧ ∀ blame ∈ blames, Precedes blame.ahead after.rest
  fails before fault after := ∃ blames last, Stops before fault after blames last

/-- A whole statement has a token of its own for its failure. -/
def owning : Contract where
  passes := orderly.passes
  fails before fault after :=
    ∃ blames last, Stops before fault after blames last ∧
      (before.rest ≠ [] → blames.length < before.rest.length)

theorem Stops.behind {before middle after : Cursor} {fault : Diagnostic}
    {first second : List Blame} {last : Blame} (front : Reports before middle first)
    (passed : ∀ blame ∈ first, Precedes blame.ahead middle.rest)
    (back : Stops middle fault after second last) :
    Stops before fault after (first ++ second) last where
  toReports := front.append passed back.toReports
  last_eq := front.stop ▸ back.last_eq
  past := back.past
  last_inside := back.last_inside.trans front.rest
  last_behind blame membership := by
    rcases List.mem_append.mp membership with here | there
    · exact (passed blame here).suffix back.last_inside
    · exact back.last_behind blame there

instance : orderly.Lawful where
  refl cursor := ⟨[], .none (List.suffix_refl _) rfl rfl, by simp⟩
  trans := by
    rintro before middle after ⟨first, front, passed⟩ ⟨second, back, passedOn⟩
    refine ⟨first ++ second, front.append passed back, ?_⟩
    intro blame membership
    rcases List.mem_append.mp membership with here | there
    · exact (passed blame here).suffix back.rest
    · exact passedOn blame there
  behind := by
    rintro before middle fault after ⟨first, front, passed⟩ ⟨second, last, back⟩
    exact ⟨first ++ second, last, back.behind front passed⟩
  move cursor _ suffix := ⟨[], .none suffix rfl rfl, by simp⟩
  number cursor := ⟨[], .none (List.suffix_refl _) rfl rfl, by simp⟩
  blame cursor fault :=
    ⟨[], ⟨cursor.rest, fault⟩, .none (List.suffix_refl _) rfl rfl, rfl, List.suffix_refl _,
      List.suffix_refl _, by simp⟩

/-- A failure with nothing reported before it. -/
theorem stops_of_quiet {before after : Cursor} {fault : Diagnostic}
    (failed : quiet.fails before fault after) : ∃ last, Stops before fault after [] last := by
  obtain ⟨⟨rest, stop, reported⟩, last, same, past, inside⟩ := failed
  exact ⟨last, .none rest stop reported, same, past, inside, by simp⟩

theorem passes_of_quiet {before after : Cursor} (passed : quiet.passes before after) :
    orderly.passes before after :=
  ⟨[], .none passed.1 passed.2.1 passed.2.2, by simp⟩

theorem recovers_orderly : Recovers quiet orderly owning where
  inner_part :=
    ⟨passes_of_quiet, fun failed => ⟨[], (stops_of_quiet failed).imp fun _ => id⟩⟩
  inner_whole := by
    refine ⟨passes_of_quiet, fun failed => ?_⟩
    obtain ⟨last, stops⟩ := stops_of_quiet failed
    exact ⟨[], last, stops, List.length_pos_iff.mpr⟩
  whole_part :=
    ⟨id, fun failed => failed.imp fun _ failed => failed.imp fun _ failed => failed.1⟩
  passes_behind {before _} passed := by
    have moved : orderly.passes before { before with rest := before.rest.tail } :=
      Lawful.move before (List.tail_suffix _)
    have behind : orderly.passes before _ := Lawful.trans moved passed
    exact behind
  fails_behind := by
    rintro before fault after ⟨blames, last, stops⟩
    have front : Reports before { before with rest := before.rest.tail } [] :=
      .none (List.tail_suffix _) rfl rfl
    have few := stops.few
    refine ⟨[] ++ blames, last, stops.behind front (by simp), fun present => ?_⟩
    have nonempty := List.length_pos_iff.mpr present
    simp only [List.length_tail] at few
    simp only [List.nil_append]
    omega
  recover := by
    rintro before fault after present ⟨blames, last, stops, fewer⟩
    have few := stops.few
    have enough := fewer present
    have shorter := (Grammar.synchronized_suffix after.rest).length_le
    have onward : Grammar.synchronized after.rest <:+ after.rest :=
      (Grammar.synchronized_suffix after.rest).trans (List.tail_suffix _)
    rw [List.length_tail] at shorter
    refine ⟨blames ++ [last], { rest := onward.trans stops.rest
                                stop := stops.stop
                                reported := by simp [stops.reported, stops.last_eq]
                                inside := ?inside
                                ordered := ?ordered
                                few := ?few }, ?passed⟩
    case inside =>
      intro blame membership
      rcases List.mem_append.mp membership with here | there
      · exact stops.inside blame here
      · exact List.mem_singleton.mp there ▸ stops.last_inside
    case ordered =>
      refine List.pairwise_append.mpr ⟨stops.ordered, List.pairwise_singleton _ _, ?_⟩
      intro one here other there
      exact List.mem_singleton.mp there ▸ stops.last_behind one here
    case few =>
      -- The failure takes a token of its own, which is passed over behind it.
      simp only [List.length_append, List.length_singleton]
      cases ended : after.rest with
      | nil =>
          simp only [Grammar.synchronized, List.length_nil]
          omega
      | cons token rest =>
          simp only [ended, List.length_cons] at few shorter ⊢
          omega
    case passed =>
      intro blame membership
      rcases List.mem_append.mp membership with here | there
      · exact (stops.last_behind blame here).suffix (onward.trans stops.past)
      · exact List.mem_singleton.mp there ▸ Grammar.precedes_synchronized stops.past

end Contract

/-! ## Whole inputs -/

namespace Blame

/-- How many tokens stand in front of the one that is blamed. -/
def place (tokens : List Token) (blame : Blame) : Nat :=
  tokens.length - blame.ahead.length

theorem place_le (tokens : List Token) (blame : Blame) : blame.place tokens ≤ tokens.length :=
  Nat.sub_le _ _

variable {tokens : List Token} {blame other : Blame}

/-- The token that is blamed stands at its place. -/
theorem getElem?_place (inside : blame.ahead <:+ tokens) (stop : Token) (behind : List Token) :
    (tokens ++ stop :: behind)[blame.place tokens]? = some (blame.ahead.headD stop) := by
  obtain ⟨front, rfl⟩ := inside
  rw [place, List.length_append, Nat.add_sub_cancel, List.append_assoc,
    List.getElem?_append_right (Nat.le_refl _), Nat.sub_self]
  cases blame.ahead <;> rfl

theorem place_lt (inside : blame.ahead <:+ tokens)
    (precedes : Precedes blame.ahead other.ahead) :
    blame.place tokens < other.place tokens ∨
      blame.place tokens = tokens.length ∧ other.place tokens = tokens.length := by
  have within := inside.length_le
  unfold place
  rcases precedes with shorter | ⟨one, another⟩
  · exact .inl (by omega)
  · simp [one, another]

end Blame

/-- The faults of an input that is not accepted are blamed on tokens of the input in
their order, where only the first closing token is blamed more than once. There is at
least one fault, and there are no more than tokens in front of the closing one. -/
theorem Grammar.faults_in_order {tokens : List Token} {stop : Token} (closing : stop.kind = .stop)
    {nextReference : Nat} {faults : List Diagnostic}
    (refused : (readProgram (tokens ++ [stop]) nextReference).1 = .error faults) :
    (∃ places : List Nat,
      List.Forall₂ (fun fault place => ∃ token cause,
        (tokens ++ [stop])[place]? = some token ∧ fault = .syntactic token cause) faults places ∧
      (∀ place ∈ places, place ≤ (contents (tokens ++ [stop])).length) ∧
      places.Pairwise fun one other => one < other ∨
        one = (contents (tokens ++ [stop])).length ∧
          other = (contents (tokens ++ [stop])).length) ∧
    1 ≤ faults.length ∧ faults.length ≤ (contents (tokens ++ [stop])).length := by
  have closed : ∃ token ∈ tokens ++ [stop], token.kind = .stop := ⟨stop, by simp, closing⟩
  obtain ⟨behind, shape⟩ := split_shape closed
  obtain ⟨front, -⟩ := split_eq (tokens ++ [stop])
  rw [contents, ← front]
  obtain ⟨statements, after, ran, blames, reports, -⟩ :=
    keeps_program Contract.recovers_orderly (.ofTokens (tokens ++ [stop]) nextReference)
  have reported : after.reported =
      blames.map (Blame.diagnostic (Cursor.split (tokens ++ [stop])).2) := reports.reported
  have inside : ∀ blame ∈ blames, blame.ahead <:+ (Cursor.split (tokens ++ [stop])).1 :=
    reports.inside
  have few : blames.length + after.rest.length ≤ (Cursor.split (tokens ++ [stop])).1.length :=
    reports.few
  have found : blames ≠ [] ∧
      faults = blames.map (Blame.diagnostic (Cursor.split (tokens ++ [stop])).2) := by
    obtain ⟨_, last, again, rfl, some⟩ := readProgram_error.mp refused
    rw [ran] at again
    cases again
    rw [reported] at some ⊢
    exact ⟨fun none => some (by rw [none]; rfl), rfl⟩
  generalize (Cursor.split (tokens ++ [stop])).1 = ahead,
    (Cursor.split (tokens ++ [stop])).2 = stopping at *
  obtain ⟨some, rfl⟩ := found
  rw [shape, List.length_map]
  refine ⟨⟨blames.map (Blame.place ahead), ?_, ?_, ?_⟩, List.length_pos_iff.mpr some, by omega⟩
  · rw [List.forall₂_map_left_iff, List.forall₂_map_right_iff, List.forall₂_same]
    intro blame membership
    exact ⟨_, blame.fault, Blame.getElem?_place (inside blame membership) stopping behind, rfl⟩
  · intro place membership
    obtain ⟨blame, -, rfl⟩ := List.mem_map.mp membership
    exact blame.place_le ahead
  · rw [List.pairwise_map]
    exact reports.ordered.imp_of_mem fun one _ precedes =>
      Blame.place_lt (inside _ one) precedes

/-- An operator without operands in a block that is never closed. Recovery passes over
the operator, and the block is blamed on the closing token. -/
theorem Grammar.faults_in_order_open_block :
    ∃ tokens stop faults, tokens = [⟨.mark .leftBrace, "\x7b", 1⟩, ⟨.mark .plus, "+", 1⟩] ∧
      stop = .atEnd 2 ∧
      faults = [.syntactic ⟨.mark .plus, "+", 1⟩ .expression, .syntactic stop .blockClosing] ∧
      stop.kind = .stop ∧ (readProgram (tokens ++ [stop]) 0).1 = .error faults ∧
      ∃ places : List Nat,
        List.Forall₂ (fun fault place => ∃ token cause,
          (tokens ++ [stop])[place]? = some token ∧ fault = .syntactic token cause)
          faults places ∧
        places.Pairwise fun one other => one < other ∨ one = 2 ∧ other = 2 := by
  have refused : (readProgram
      ([⟨.mark .leftBrace, "\x7b", 1⟩, ⟨.mark .plus, "+", 1⟩] ++ [.atEnd 2]) 0).1 =
      .error [.syntactic ⟨.mark .plus, "+", 1⟩ .expression,
        .syntactic (.atEnd 2) .blockClosing] := by
    rfl
  obtain ⟨⟨places, blamed, -, ordered⟩, -⟩ := faults_in_order rfl refused
  exact ⟨_, _, _, rfl, rfl, rfl, rfl, refused, places, blamed, ordered⟩

end Lox
