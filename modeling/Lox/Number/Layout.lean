import Lox.Number.Shortest

/-!
# Layouts of number text

Numbers are written in several places, each with its own notation. What differs
is collected in a `Layout`: where positional notation ends, whether a whole
number keeps a fraction, how an exponent is written and how ties are broken.
Everything else is shared by `Layout.render`.
-/

namespace Lox.Number

/-- Digits written positionally, with a mark for whole numbers at the end. -/
def Decimal.positional (decimal : Decimal) (wholeMark : String) : String :=
  let digits := decimal.digits
  if 0 ≤ decimal.power then
    String.ofList (digits ++ List.replicate decimal.power.toNat '0') ++ wholeMark
  else
    let places := (-decimal.power).toNat
    if places < digits.length then
      String.ofList (digits.take (digits.length - places) ++ '.' ::
        digits.drop (digits.length - places))
    else
      String.ofList ('0' :: '.' :: List.replicate (places - digits.length) '0' ++ digits)

/-- The parts that positional digits are written in: the digits and the zeros on
either side of them, or the digits on either side of the point. -/
def Decimal.positionalPieces (decimal : Decimal) (wholeMark : String) : List String :=
  let digits := decimal.digits
  if 0 ≤ decimal.power then
    [String.ofList digits, String.ofList (List.replicate decimal.power.toNat '0'), wholeMark]
  else
    let places := (-decimal.power).toNat
    if places < digits.length then
      [String.ofList (digits.take (digits.length - places)), ".",
        String.ofList (digits.drop (digits.length - places))]
    else
      ["0.", String.ofList (List.replicate (places - digits.length) '0'), String.ofList digits]

theorem Decimal.join_positionalPieces (decimal : Decimal) (wholeMark : String) :
    String.join (decimal.positionalPieces wholeMark) = decimal.positional wholeMark := by
  simp only [positionalPieces, positional]
  split
  · simp [String.ofList_append, String.append_assoc]
  · split
    · simp [String.ofList_append, String.ofList_cons]
    · simp [← String.toList_inj]

/-- A way of writing numbers. -/
structure Layout where
  notANumber : String := "NaN"
  infinity : String
  /-- The least and greatest decimal exponent written positionally. Without
  bounds every number is. -/
  bounds : Option (Int × Int)
  /-- What follows a whole number in positional notation. -/
  wholeMark : String
  /-- What follows a whole mantissa in front of an exponent. -/
  mantissaMark : String
  /-- The sign of an exponent that is not negative. -/
  plus : String
  /-- The least number of exponent digits. -/
  exponentWidth : Nat
  tie : Tie

namespace Layout

/-- Whether a decimal exponent is written positionally. -/
def isPositional (layout : Layout) (exponent : Int) : Bool :=
  match layout.bounds with
  | none => true
  | some (least, greatest) => least ≤ exponent && exponent ≤ greatest

/-- An exponent with its sign, padded with zeros. -/
def exponentText (layout : Layout) (exponent : Int) : String :=
  let digits := Nat.toDigits 10 exponent.natAbs
  let padding := List.replicate (layout.exponentWidth - digits.length) '0'
  (if exponent < 0 then "-" else layout.plus) ++ String.ofList (padding ++ digits)

/-- A decimal as a mantissa with one leading digit and an exponent. -/
def scientific (layout : Layout) (decimal : Decimal) : String :=
  let mantissa :=
    match decimal.digits with
    | [] => ""
    | [digit] => String.ofList [digit] ++ layout.mantissaMark
    | digit :: rest => String.ofList (digit :: '.' :: rest)
  mantissa ++ "e" ++ layout.exponentText decimal.exponent

/-- A magnitude without its sign. -/
def magnitude (layout : Layout) (significand : Nat) (exponent : Int) : String :=
  if significand = 0 then "0" ++ layout.wholeMark
  else
    let decimal := shortest layout.tie significand exponent
    if layout.isPositional decimal.exponent then decimal.positional layout.wholeMark
    else layout.scientific decimal

/-- The text of a number. -/
def render (layout : Layout) (value : Float) : String :=
  match content value with
  | .notANumber => layout.notANumber
  | .infinite negative => signText negative ++ layout.infinity
  | .finite negative significand exponent =>
      signText negative ++ layout.magnitude significand exponent

/-- The parts that an exponent is written in. Zeros are padded one by one. -/
def exponentPieces (layout : Layout) (exponent : Int) : List String :=
  let digits := Nat.toDigits 10 exponent.natAbs
  (if exponent < 0 then "-" else layout.plus) ::
    (List.replicate (layout.exponentWidth - digits.length) "0" ++ [String.ofList digits])

/-- The parts that a mantissa and an exponent are written in. The sign of the number
is part of the mantissa, and the mark of a whole mantissa is part of what follows. -/
def scientificPieces (layout : Layout) (sign : String) (decimal : Decimal) : List String :=
  let exponent := layout.exponentPieces decimal.exponent
  match decimal.digits with
  | [] => sign :: "e" :: exponent
  | [digit] => (sign ++ String.ofList [digit]) :: (layout.mantissaMark ++ "e") :: exponent
  | digit :: rest => (sign ++ String.ofList (digit :: '.' :: rest)) :: "e" :: exponent

/-- The parts that a magnitude is written in behind its sign. -/
def magnitudePieces (layout : Layout) (sign : String) (significand : Nat) (exponent : Int) :
    List String :=
  if significand = 0 then [sign, "0", layout.wholeMark]
  else
    let decimal := shortest layout.tie significand exponent
    if layout.isPositional decimal.exponent then
      sign :: decimal.positionalPieces layout.wholeMark
    else layout.scientificPieces sign decimal

/-- The parts that the text of a number is written in, in order. -/
def pieces (layout : Layout) (value : Float) : List String :=
  match content value with
  | .notANumber => [layout.notANumber]
  | .infinite negative => [signText negative, layout.infinity]
  | .finite negative significand exponent =>
      layout.magnitudePieces (signText negative) significand exponent

/-! ### The parts make up the text -/

theorem join_exponentPieces (layout : Layout) (exponent : Int) :
    String.join (layout.exponentPieces exponent) = layout.exponentText exponent := by
  have zeros (count : Nat) :
      String.join (List.replicate count "0") = String.ofList (List.replicate count '0') := by
    rw [← String.toList_inj, String.toList_join, String.toList_ofList]
    induction count with
    | zero => rfl
    | succ count ih => simp [List.replicate_succ, ih]
  simp [exponentPieces, exponentText, zeros, String.ofList_append]

theorem join_scientificPieces (layout : Layout) (sign : String) (decimal : Decimal) :
    String.join (layout.scientificPieces sign decimal) = sign ++ layout.scientific decimal := by
  have exponent := layout.join_exponentPieces decimal.exponent
  simp only [scientificPieces, scientific]
  split
  · simp [exponent]
  · simp [exponent, String.append_assoc, ← String.toList_inj]
  · simp [exponent, String.append_assoc]

theorem join_magnitudePieces (layout : Layout) (sign : String) (significand : Nat)
    (exponent : Int) :
    String.join (layout.magnitudePieces sign significand exponent) =
      sign ++ layout.magnitude significand exponent := by
  simp only [magnitudePieces, magnitude]
  split
  · simp
  · split
    · simp [Decimal.join_positionalPieces]
    · exact layout.join_scientificPieces sign _

/-- The parts of the text of a number make up that text. -/
theorem join_pieces (layout : Layout) (value : Float) :
    String.join (layout.pieces value) = layout.render value := by
  unfold pieces render
  split
  · simp
  · simp
  · exact layout.join_magnitudePieces _ _ _

/-- Every digit in its place, whatever the size of the number. -/
def plain : Layout where
  infinity := "inf"
  bounds := none
  wholeMark := ""
  mantissaMark := ""
  plus := ""
  exponentWidth := 1
  tie := .away

end Layout

end Lox.Number
