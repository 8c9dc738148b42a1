import FormulaSheet.Formula.Expr
import FormulaSheet.Formula.Token

/-!
# Reading formulas

A formula is a word, a quoted text, or a call: a parenthesis, a word that names the function, and
arguments that are formulas themselves, up to the matching parenthesis.

## Words

Digits are a number, the double nearest to it. Letters and digits are a reference, and two of these
around a colon a range; such a word is no formula when it lies outside the grid or its corners are
reversed. All other words are unknown.

## Calls

`splitArguments` cuts what follows a name into the arguments, by counting parentheses, and says how
the call ends. The arguments are read before the ending is judged, so that a fault inside the first
faulty argument is reported even if the call itself does not close. An argument cut out in this way
is a single word or quoted text, or runs from a parenthesis to the matching one.

## Depth

The expression itself is at depth zero and an argument one deeper than its call. Depths up to
`maxNesting` are read; anything deeper is refused before it is looked at.
-/

namespace FormulaSheet

/-- The deepest level at which an expression is read. -/
def maxNesting : Nat := 256

namespace Expr

/-! ## Words -/

/-- Reads a word. -/
def ofWord (word : String) : Except ParseFault Expr :=
  if Address.isDigits word.toList then
    .ok (.number (Binary64.ofNat (Nat.ofDigitChars 10 word.toList 0)))
  else if Address.HasForm word then (Address.parse word).mapError .address |>.map .cell
  else match Range.split word with
    | some (first, last) =>
      if Address.HasForm first ∧ Address.HasForm last then
        (Range.parse word).mapError .address |>.map .range
      else .error (.unknownValue word)
    | none => .error (.unknownValue word)

/-! ## Arguments -/

/-- How the tokens of a call end. -/
inductive CallEnd where
  /-- With its own closing parenthesis, and then these tokens. -/
  | closed (rest : List Token)
  /-- Before it closes. -/
  | unclosed
deriving DecidableEq

/-- Goes on cutting arguments out of the tokens of a call. `depth` parentheses are open inside the
call, `current` is the argument that they belong to, its latest token first, and `found` the
arguments before it, the latest first. -/
def cutArguments (found : List (List Token)) (current : List Token) :
    Nat → List Token → List (List Token) × CallEnd
  | _, [] => (found.reverse, .unclosed)
  | depth, .openParen :: ts => cutArguments found (.openParen :: current) (depth + 1) ts
  | 0, .closeParen :: ts => (found.reverse, .closed ts)
  | 1, .closeParen :: ts => cutArguments ((.closeParen :: current).reverse :: found) [] 0 ts
  | depth + 2, .closeParen :: ts => cutArguments found (.closeParen :: current) (depth + 1) ts
  | 0, t :: ts => cutArguments ((t :: current).reverse :: found) [] 0 ts
  | depth + 1, t :: ts => cutArguments found (t :: current) (depth + 1) ts

/-- The arguments among the tokens behind a function's name, and how the call ends. -/
def splitArguments (ts : List Token) : List (List Token) × CallEnd := cutArguments [] [] 0 ts

/-! ## Expressions -/

/-- Reads one expression that takes up all the tokens, with so many levels left to go down. -/
def ofTokens : Nat → List Token → Except ParseFault Expr
  | 0, _ => .error (.tooDeep maxNesting)
  | _ + 1, [] => .error .emptyExpression
  | _ + 1, .closeParen :: _ => .error .unexpectedCloseParen
  | _ + 1, [.value word] => ofWord word
  | _ + 1, [.quoted s] => .ok (.text s)
  | _ + 1, .value _ :: _ :: _ => .error .trailingTokens
  | _ + 1, .quoted _ :: _ :: _ => .error .trailingTokens
  | levels + 1, .openParen :: .value name :: rest =>
    let (slices, ending) := splitArguments rest
    match slices.mapM (ofTokens levels) with
    | .error fault => .error fault
    | .ok args =>
      match ending with
      | .closed [] => .ok (named name args)
      | .closed (_ :: _) => .error .trailingAfterCall
      | .unclosed => .error .unmatchedParen
  | _ + 1, .openParen :: _ => .error .missingFunctionName

/-- Reads formula text. Text without tokens is the formula of an empty cell, which is none. -/
def parse? (text : String) : Except ParseFault (Option Expr) :=
  match Token.ofText text with
  | .error fault => .error fault
  | .ok [] => .ok none
  | .ok tokens => (ofTokens (maxNesting + 1) tokens).map some

/-- Reads formula text; a fault becomes part of the expression. -/
def parse (text : String) : Option Expr :=
  match parse? text with
  | .ok e => e
  | .error fault => some (.failure fault.message)

end Expr

end FormulaSheet
