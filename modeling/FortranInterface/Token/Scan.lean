import FortranInterface.Token.Basic

/-!
Cutting a source text into tokens. The text is first cut into slices, each the longest piece that
starts where the one before it ends: blanks, a comment, the continuation of a line, or a lexeme.
The tokens are the lexemes of the slices, placed by the bytes that come before them. What starts no
lexeme becomes a stray one, so no part of the text is lost.
-/

namespace FortranInterface

namespace Scan

inductive Piece where
  | blanks
  | comment
  | continuation
  | lexeme (value : Lexeme)
  deriving DecidableEq

/-- A slice keeps its characters: the first one and those that follow it. -/
structure Slice where
  piece : Piece
  first : Char
  others : List Char

def Slice.text (slice : Slice) : List Char :=
  slice.first :: slice.others

/-- What the text at hand begins with, and how many characters of it follow the first one. -/
abbrev Cut := Piece × Nat

def isBlank (c : Char) : Bool :=
  c = ' ' || c = '\t' || c = '\r' || c = '\x0c'

def isSpace (c : Char) : Bool :=
  c = ' ' || c = '\t'

/-- What may stand between a continued line and the mark that opens its continuation. -/
def isGap (c : Char) : Bool :=
  c = ' ' || c = '\t' || c = '\r' || c = '\n'

def isNameChar (c : Char) : Bool :=
  c.isAlphanum || c = '_'

def isHexDigit (c : Char) : Bool :=
  c.isDigit || ('a' ≤ c && c ≤ 'f') || ('A' ≤ c && c ≤ 'F')

def isExponentLetter (c : Char) : Bool :=
  c = 'e' || c = 'E' || c = 'd' || c = 'D'

def isRadixLetter (c : Char) : Bool :=
  c = 'b' || c = 'B' || c = 'o' || c = 'O' || c = 'z' || c = 'Z'

def isSign (c : Char) : Bool :=
  c = '+' || c = '-'

def isQuote (c : Char) : Bool :=
  c = '\'' || c = '"'

def runLength (test : Char → Bool) (text : List Char) : Nat :=
  (text.takeWhile test).length

def commentLength : List Char → Nat :=
  runLength (· ≠ '\n')

def lowered (text : List Char) : String :=
  String.ofList (text.map Char.toLower)

/-! Numbers. -/

/-- The length of an exponent, zero where no digit follows its letter and sign. -/
def exponentLength : List Char → Nat
  | letter :: rest =>
    if isExponentLetter letter then
      match rest with
      | sign :: digits =>
        if isSign sign then
          match runLength Char.isDigit digits with
          | 0 => 0
          | count => count + 2
        else
          match runLength Char.isDigit rest with
          | 0 => 0
          | count => count + 1
      | [] => 0
    else 0
  | [] => 0

def kindLength : List Char → Nat
  | '_' :: rest =>
    match runLength isNameChar rest with
    | 0 => 0
    | count => count + 1
  | _ => 0

def realTailLength (text : List Char) : Nat :=
  let exponent := exponentLength text
  exponent + kindLength (text.drop exponent)

def numberLength (rest : List Char) : Bool × Nat :=
  let whole := runLength Char.isDigit rest
  match rest.drop whole with
  | '.' :: fraction =>
    let places := runLength Char.isDigit fraction
    (true, whole + 1 + places + realTailLength (fraction.drop places))
  | after =>
    match exponentLength after with
    | 0 => (false, whole + kindLength after)
    | _ => (true, whole + realTailLength after)

def fractionLength (rest : List Char) : Nat :=
  let places := runLength Char.isDigit rest
  places + realTailLength (rest.drop places)

/-! Texts between quotes. -/

/-- How far a quoted text reaches after its opening quote, and whether it is closed before the line
ends. A quote written twice belongs to the text. -/
def quotedReach (quote : Char) (before : Nat) : List Char → Bool × Nat
  | [] => (false, before)
  | c :: rest =>
    if c = '\n' then (false, before)
    else if c = quote then
      match rest with
      | next :: after =>
        if next = quote then quotedReach quote (before + 2) after else (true, before + 1)
      | [] => (true, before + 1)
    else quotedReach quote (before + 1) rest

/-- The text between two quotes, with each quote that is written twice once; `shown` holds, last
first, what has been read. -/
def unquotedOnto (quote : Char) (shown : List Char) : List Char → List Char
  | first :: second :: rest =>
    if first = quote ∧ second = quote then unquotedOnto quote (quote :: shown) rest
    else unquotedOnto quote (first :: shown) (second :: rest)
  | [last] => (last :: shown).reverse
  | [] => shown.reverse

def unquoted (quote : Char) (text : List Char) : List Char :=
  unquotedOnto quote [] text

/-! Words between points. -/

def dottedWord? : String → Option Lexeme
  | "true" => some (.truth true)
  | "false" => some (.truth false)
  | "eq" => some (.mark .equal)
  | "ne" => some (.mark .notEqual)
  | "le" => some (.mark .lessEqual)
  | "ge" => some (.mark .greaterEqual)
  | "lt" => some (.mark .less)
  | "gt" => some (.mark .greater)
  | "and" => some (.mark .and)
  | "or" => some (.mark .or)
  | "not" => some (.mark .not)
  | "eqv" => some (.mark .eqv)
  | "neqv" => some (.mark .neqv)
  | _ => none

def dottedWords : List String :=
  ["true", "false", "eq", "ne", "le", "ge", "lt", "gt", "and", "or", "not", "eqv", "neqv"]

def beginsDottedWord (letters : String) : Bool :=
  dottedWords.any fun word => letters.toList.isPrefixOf word.toList

/-! One cut for each way in which a piece can begin. -/

def stray (first : Char) (rest : List Char) (count : Nat) : Cut :=
  (.lexeme (.stray (String.ofList (first :: rest.take count))), count)

def cutName (first : Char) (rest : List Char) : Cut :=
  let count := runLength isNameChar rest
  let word := lowered (first :: rest.take count)
  match Keyword.ofSpelling? word with
  | some keyword => (.lexeme (.keyword keyword), count)
  | none => (.lexeme (.name word), count)

/-- A radix letter opens a bit pattern only if a quote and a hexadecimal digit follow it. -/
def cutRadix (first : Char) (rest : List Char) : Cut :=
  match rest with
  | quote :: digits =>
    if isQuote quote then
      match runLength isHexDigit digits with
      | 0 => cutName first rest
      | count =>
        if (digits.drop count).head? = some quote then
          (.lexeme (.boz (String.ofList (first :: rest.take (count + 2)))), count + 2)
        else stray first rest (count + 1)
    else cutName first rest
  | [] => cutName first rest

def cutNumber (first : Char) (rest : List Char) : Cut :=
  match numberLength rest with
  | (true, count) => (.lexeme (.real (String.ofList (first :: rest.take count))), count)
  | (false, count) => (.lexeme (.integer (String.ofList (first :: rest.take count))), count)

def cutText (quote : Char) (rest : List Char) : Cut :=
  match quotedReach quote 0 rest with
  | (true, count) =>
    (.lexeme (.text (String.ofList (unquoted quote (rest.take (count - 1))))), count)
  | (false, count) => stray quote rest count

/-- A point that no second point closes is stray alone where its letters begin a word that is
written between points, and with its letters otherwise. -/
def cutPoint (rest : List Char) : Cut :=
  match rest with
  | '.' :: _ => (.lexeme (.mark .dotDot), 1)
  | _ =>
    match fractionLength rest, runLength Char.isDigit rest with
    | count, _ + 1 => (.lexeme (.real (String.ofList ('.' :: rest.take count))), count)
    | _, 0 =>
      let count := runLength Char.isAlpha rest
      let letters := lowered (rest.take count)
      match count, (rest.drop count).head? with
      | 0, _ => stray '.' rest 0
      | _, some '.' =>
        (.lexeme ((dottedWord? letters).getD (.definedOperator letters)), count + 1)
      | _, _ => if beginsDottedWord letters then stray '.' rest 0 else stray '.' rest count

/-- The mark of a continued line reaches over the end of the line and every empty line after it, up
to the mark that may open the continuation. -/
def cutContinuation (rest : List Char) : Cut :=
  let spaces := runLength isSpace rest
  let remark :=
    match rest.drop spaces with
    | '!' :: comment => 1 + commentLength comment
    | _ => 0
  let line := spaces + remark
  let ending :=
    match rest.drop line with
    | '\n' :: _ => 1
    | '\r' :: '\n' :: _ => 2
    | _ => 0
  if ending = 0 then stray '&' rest line
  else
    let gap := line + ending + runLength isGap (rest.drop (line + ending))
    if (rest.drop gap).head? = some '&' then (.continuation, gap + 1) else (.continuation, gap)

def cutMark (single : Mark) (pairs : List (Char × Mark)) (rest : List Char) : Cut :=
  match rest with
  | second :: _ =>
    match pairs.lookup second with
    | some double => (.lexeme (.mark double), 1)
    | none => (.lexeme (.mark single), 0)
  | [] => (.lexeme (.mark single), 0)

def cut (first : Char) (rest : List Char) : Cut :=
  if isBlank first then (.blanks, runLength isBlank rest)
  else if first = '!' then (.comment, commentLength rest)
  else if first = '&' then cutContinuation rest
  else if first = '\n' || first = ';' then (.lexeme .newline, 0)
  else if isRadixLetter first then cutRadix first rest
  else if first.isAlpha then cutName first rest
  else if isQuote first then cutText first rest
  else if first.isDigit then cutNumber first rest
  else if first = '.' then cutPoint rest
  else if first = '*' then cutMark .star [('*', .power)] rest
  else if first = '/' then cutMark .slash [('/', .concat), ('=', .notEqual)] rest
  else if first = '=' then cutMark .assign [('=', .equal), ('>', .arrow)] rest
  else if first = '<' then cutMark .less [('=', .lessEqual)] rest
  else if first = '>' then cutMark .greater [('=', .greaterEqual)] rest
  else if first = ':' then cutMark .colon [(':', .doubleColon)] rest
  else if first = '+' then cutMark .plus [] rest
  else if first = '-' then cutMark .minus [] rest
  else if first = '(' then cutMark .leftParen [] rest
  else if first = ')' then cutMark .rightParen [] rest
  else if first = '[' then cutMark .leftBracket [] rest
  else if first = ']' then cutMark .rightBracket [] rest
  else if first = ',' then cutMark .comma [] rest
  else if first = '%' then cutMark .percent [] rest
  else stray first rest 0

/-! Slices and tokens. -/

def slicesOnto (done : Array Slice) : List Char → Array Slice
  | [] => done
  | first :: rest =>
    let (piece, count) := cut first rest
    slicesOnto (done.push ⟨piece, first, rest.take count⟩) (rest.drop count)
termination_by text => text.length
decreasing_by
  simp only [List.length_drop, List.length_cons]
  omega

def slices (text : List Char) : List Slice :=
  (slicesOnto #[] text).toList

def byteLength : List Char → Nat
  | [] => 0
  | c :: rest => c.utf8Size + byteLength rest

structure Progress where
  tokens : Array Token
  offset : Nat

def Progress.step (progress : Progress) (slice : Slice) : Progress :=
  let stop := progress.offset + byteLength slice.text
  match slice.piece with
  | .lexeme lexeme => ⟨progress.tokens.push ⟨lexeme, ⟨progress.offset, stop⟩⟩, stop⟩
  | _ => ⟨progress.tokens, stop⟩

end Scan

def tokens (source : String) : List Token :=
  ((Scan.slices source.toList).foldl Scan.Progress.step ⟨#[], 0⟩).tokens.toList

end FortranInterface
