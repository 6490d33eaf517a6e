import RenderTrace.SourceTree
import RenderTrace.Text.LetterCase
import RenderTrace.Text.Quoted

/-!
# Cutting PHP source into lexemes

A source is cut into pieces that follow one another without a gap: lexemes, and the
white space between them. What a piece may be depends on a mode: text outside the
tags, code, names that come apart into their segments, and shell commands. Each
rule says how long the piece at the front is.
-/

namespace RenderTrace.Php
open Text

/-- What may come next. -/
inductive Mode where
  /-- Text outside the tags. -/
  | page
  | code
  /-- After the word `namespace`. -/
  | namespaced
  /-- Inside a name whose segments are lexemes of their own. -/
  | segments
  /-- Inside a shell command. -/
  | shell
deriving DecidableEq, Repr

/-- The piece at the front: its node type, none for white space; its length less one; and the
mode after it. -/
structure Cut where
  type : Option String
  more : Nat
  next : Mode

/-- White space between lexemes. -/
def isGap (c : Char) : Bool :=
  let n := c.toNat
  n == 32 || (9 ≤ n && n ≤ 13) || n == 0xA0 || n == 0x200B || n == 0x2060 || n == 0xFEFF

/-- A character that may begin a word. -/
def isWordStart (c : Char) : Bool :=
  c.isAlpha || c == '_' || 0x80 ≤ c.toNat

/-- A character that may continue a word. -/
def isWordRest (c : Char) : Bool :=
  isWordStart c || c.isDigit

/-- The length of the longest start with the property. -/
def runLength (p : Char → Bool) (cs : List Char) : Nat :=
  (cs.takeWhile p).length

/-- A word comes first. -/
def startsWord : List Char → Bool
  | c :: _ => isWordStart c
  | [] => false

/-- The opening tag in front: its length. -/
def tagLength? (cs : List Char) : Option Nat :=
  if cs.take 3 == ['<', '?', '='] then some 3
  else if (cs.take 5).map Char.toLower == ['<', '?', 'p', 'h', 'p'] then some 5
  else none

/-- The length of the text before the next opening tag. -/
def pageLength : List Char → Nat
  | [] => 0
  | c :: rest => if (tagLength? (c :: rest)).isSome then 0 else pageLength rest + 1

/-- The length of the rest of a line comment. -/
def lineCommentLength : List Char → Nat
  | [] => 0
  | '?' :: '>' :: _ => 0
  | c :: rest => if c = '\n' ∨ c = '\r' then 0 else lineCommentLength rest + 1

/-- The length of the rest of a block comment, its end included. -/
def blockCommentLength : List Char → Nat
  | [] => 0
  | '*' :: '/' :: _ => 2
  | _ :: rest => blockCommentLength rest + 1

/-- What is open inside a string: quoted text, or code in braces. -/
inductive Inside where
  | single
  | double
  | braces
deriving DecidableEq, Repr

/-- The length of the rest of a string up to the end of the outermost thing that is open; `hidden`
says that a backslash hides the next character. -/
def stringLength (hidden : Bool) : List Inside → List Char → Nat
  | [], _ => 0
  | _, [] => 0
  | inside :: outer, c :: rest =>
    if hidden then stringLength false (inside :: outer) rest + 1
    else match inside with
      | .single =>
        if c = '\\' then stringLength true (inside :: outer) rest + 1
        else if c = singleQuote then stringLength false outer rest + 1
        else stringLength false (inside :: outer) rest + 1
      | .double =>
        if c = '\\' then stringLength true (inside :: outer) rest + 1
        else if c = doubleQuote then stringLength false outer rest + 1
        else if c = '{' ∧ rest.head? = some '$' then
          stringLength false (.braces :: inside :: outer) rest + 1
        else stringLength false (inside :: outer) rest + 1
      | .braces =>
        if c = singleQuote then stringLength false (.single :: inside :: outer) rest + 1
        else if c = doubleQuote then stringLength false (.double :: inside :: outer) rest + 1
        else if c = '{' then stringLength false (.braces :: inside :: outer) rest + 1
        else if c = '}' then stringLength false outer rest + 1
        else stringLength false (inside :: outer) rest + 1

/-- The length of a shell command up to its closing mark or a variable. -/
def shellLength (hidden : Bool) : List Char → Nat
  | [] => 0
  | c :: rest =>
    if hidden then shellLength false rest + 1
    else if c = '\x60' ∨ (c = '$' ∧ startsWord rest) then 0
    else shellLength (c == '\\') rest + 1

/-- The closing label at the front of a line, indented or not: its length. -/
def closingLabel? (label line : List Char) : Option Nat :=
  let indent := runLength (fun c => c == ' ' || c == '\t') line
  let cs := line.drop indent
  if label.isPrefixOf cs && !(cs.drop label.length).head?.any isWordRest then
    some (indent + label.length)
  else none

/-- The length of a here document's text from the start of a line, its closing label included;
`fresh` says that a line starts. -/
def hereTextLength? (label : List Char) (fresh : Bool) : List Char → Option Nat
  | [] => none
  | c :: rest =>
    match if fresh then closingLabel? label (c :: rest) else none with
    | some n => some n
    | none => (hereTextLength? label (c == '\n') rest).map (· + 1)

/-- The here document at the front, after its three angle brackets: its node type and its length. -/
def hereDocument? (cs : List Char) : Option (String × Nat) :=
  let blanks := runLength (fun c => c == ' ' || c == '\t') cs
  let opening := cs.drop blanks
  let quote := (opening.take 1).filter isQuote
  let label := (opening.drop quote.length).takeWhile isWordRest
  let afterLabel := opening.drop (quote.length + label.length)
  let lineEnd := afterLabel.drop quote.length
  let breakLength := if lineEnd.take 2 == ['\r', '\n'] then 2 else 1
  if startsWord label && quote.isPrefixOf afterLabel &&
      lineEnd.head?.any (fun c => c == '\n' || c == '\r') then
    (hereTextLength? label true (lineEnd.drop breakLength)).map fun n =>
      (if quote == [singleQuote] then "nowdoc" else "heredoc",
        blanks + quote.length + label.length + quote.length + breakLength + n)
  else none

/-- The length of the digits of a number, letters of its base included. -/
def digitsLength (cs : List Char) : Nat :=
  runLength (fun c => c.isDigit || c == '_') cs

/-- The length of an exponent at the front. -/
def exponentLength (cs : List Char) : Nat :=
  match cs with
  | e :: rest =>
    if e = 'e' ∨ e = 'E' then
      let sign := if rest.head? = some '+' ∨ rest.head? = some '-' then 1 else 0
      if (rest.drop sign).head?.any Char.isDigit then 1 + sign + digitsLength (rest.drop sign)
      else 0
    else 0
  | [] => 0

/-- The number at the front: its node type and its length. -/
def number (cs : List Char) : String × Nat :=
  match cs with
  | '0' :: base :: digit :: rest =>
    if base.toLower ∈ ['x', 'b', 'o'] ∧ digit.isAlphanum then
      ("integer", 2 + runLength (fun c => c.isAlphanum || c == '_') (digit :: rest))
    else decimal cs
  | _ => decimal cs
where
  decimal (cs : List Char) : String × Nat :=
    let whole := digitsLength cs
    let rest := cs.drop whole
    let fraction :=
      if rest.head? = some '.' ∧ rest[1]? ≠ some '.' then 1 + digitsLength (rest.drop 1) else 0
    let exponent := exponentLength (rest.drop fraction)
    (if fraction + exponent = 0 then "integer" else "float", whole + fraction + exponent)

/-- The length of segments at the front, each after a backslash. -/
def segmentsLength : List Char → Nat
  | '\\' :: c :: rest => if isWordStart c then 2 + wordLength rest else 0
  | _ => 0
where
  wordLength : List Char → Nat
    | [] => 0
    | '\\' :: c :: rest => if isWordStart c then 2 + wordLength rest else 0
    | c :: rest => if isWordRest c then 1 + wordLength rest else 0

/-- The words of more than one character that are operators, longest first. -/
def operators : List (List Char) :=
  ["...", "<=>", "**=", "<<=", ">>=", "===", "!==", "??=", "?->", "??", "->", "=>", "::", "++",
    "--", "<=", ">=", "==", "!=", "<>", "&&", "||", "+=", "-=", "*=", "/=", ".=", "%=", "&=",
    "|=", "^=", "<<", ">>", "**", "#["].map String.toList

/-- The length of the operator at the front; a character that begins none stands alone. -/
def operatorLength (cs : List Char) : Nat :=
  ((operators.find? fun op => op.isPrefixOf cs).map List.length).getD 1

/-- The node type of marks and operators. -/
def markType : String := "punctuation"

/-- A mark or operator at the front. -/
def cutOperator (cs : List Char) : Cut :=
  ⟨some markType, operatorLength cs - 1, .code⟩

/-- A name at the front, which may be qualified. Names under `namespace\` and the prefix of a
group of imports come apart into segments. -/
def cutName (cs : List Char) : Cut :=
  let word := runLength isWordRest cs
  let all := word + segmentsLength (cs.drop word)
  let isNamespace := (cs.take word).map Char.toLower == "namespace".toList
  if all = word then
    if isNamespace then ⟨some "name", word - 1, .namespaced⟩
    else if (cs.drop word).take 2 == ['\\', '{'] then ⟨some "name", word - 1, .segments⟩
    else ⟨some "name", word - 1, .code⟩
  else if isNamespace ∨ (cs.drop all).take 2 = ['\\', '{'] then
    if word = 0 then ⟨some markType, 0, .segments⟩ else ⟨some "name", word - 1, .segments⟩
  else ⟨some "qualified_name", all - 1, .code⟩

/-- The piece of code at the front. -/
def cutCode (cs : List Char) : Cut :=
  match cs with
  | [] => ⟨none, 0, .code⟩
  | '?' :: '>' :: _ => ⟨some "php_end_tag", 1, .page⟩
  | '/' :: '/' :: rest => ⟨some "comment", 1 + lineCommentLength rest, .code⟩
  | '/' :: '*' :: rest => ⟨some "comment", 1 + blockCommentLength rest, .code⟩
  | '#' :: '[' :: _ => cutOperator cs
  | '#' :: rest => ⟨some "comment", lineCommentLength rest, .code⟩
  | '<' :: '<' :: '<' :: rest =>
    match hereDocument? rest with
    | some (type, n) => ⟨some type, 2 + n, .code⟩
    | none => cutOperator cs
  | '.' :: d :: rest =>
    if d.isDigit then
      let digits := digitsLength (d :: rest)
      ⟨some "float", digits + exponentLength ((d :: rest).drop digits), .code⟩
    else cutOperator cs
  | '$' :: rest =>
    if startsWord rest then ⟨some "variable_name", runLength isWordRest rest, .code⟩
    else cutOperator cs
  | '\\' :: rest => if startsWord rest then cutName cs else cutOperator cs
  | c :: rest =>
    if (c = 'b' ∨ c = 'B') ∧ rest.head? = some singleQuote then
      ⟨some "string", 1 + stringLength false [.single] (rest.drop 1), .code⟩
    else if (c = 'b' ∨ c = 'B') ∧ rest.head? = some doubleQuote then
      ⟨some "encapsed_string", 1 + stringLength false [.double] (rest.drop 1), .code⟩
    else if isGap c then ⟨none, runLength isGap rest, .code⟩
    else if c = singleQuote then ⟨some "string", stringLength false [.single] rest, .code⟩
    else if c = doubleQuote then ⟨some "encapsed_string", stringLength false [.double] rest, .code⟩
    else if c = '\x60' then ⟨some markType, 0, .shell⟩
    else if c.isDigit then
      let (type, n) := number cs
      ⟨some type, n - 1, .code⟩
    else if isWordStart c then cutName cs
    else cutOperator cs

/-- The piece outside the tags at the front. White space there counts only after the first other
character of a text. -/
def cutPage (cs : List Char) : Cut :=
  match tagLength? cs with
  | some n => ⟨some "php_tag", n - 1, .code⟩
  | none =>
    if cs.head?.any isGap then ⟨none, runLength isGap cs - 1, .page⟩
    else ⟨some "text", pageLength cs - 1, .page⟩

/-- The piece at the front. -/
def cut (mode : Mode) (cs : List Char) : Cut :=
  match mode with
  | .page => cutPage cs
  | .code => cutCode cs
  | .namespaced =>
    if startsWord cs then ⟨some "name", runLength isWordRest cs - 1, .segments⟩
    else
      let c := cutCode cs
      if c.type = none ∨ c.type = some "comment" then { c with next := .namespaced } else c
  | .segments =>
    if startsWord cs then ⟨some "name", runLength isWordRest cs - 1, .segments⟩
    else if cs.head? = some '\\' then ⟨some markType, 0, .segments⟩
    else cutCode cs
  | .shell =>
    if cs.head? = some '\x60' then ⟨some markType, 0, .code⟩
    else if cs.head? = some '$' ∧ startsWord cs.tail then
      ⟨some "variable_name", runLength isWordRest cs.tail, .shell⟩
    else ⟨some "string_content", shellLength false cs - 1, .shell⟩

/-- A piece of the source: white space or a lexeme. -/
structure Piece where
  type : Option String
  text : List Char

/-- Cuts a source into pieces. -/
def pieces (mode : Mode) : List Char → List Piece
  | [] => []
  | c :: rest =>
    let front := cut mode (c :: rest)
    ⟨front.type, c :: rest.take front.more⟩ :: pieces front.next (rest.drop front.more)
termination_by cs => cs.length
decreasing_by simp only [List.length_drop, List.length_cons]; omega

/-- A lexeme with its place: the byte it starts at, and the rows before it. -/
structure Lexeme where
  type : String
  text : String
  start : Nat
  row : Nat
deriving DecidableEq, Repr

namespace Lexeme

/-- The byte after the lexeme. -/
def stop (l : Lexeme) : Nat :=
  l.start + l.text.utf8ByteSize

/-- The row the lexeme ends on. -/
def endRow (l : Lexeme) : Nat :=
  l.row + l.text.toList.count '\n'

/-- The lexeme is the given mark. -/
def isMark (mark : String) (l : Lexeme) : Bool :=
  l.type == markType && l.text == mark

/-- The lexeme is the given word, letter case ignored. -/
def isWord (word : String) (l : Lexeme) : Bool :=
  l.type == "name" && lower l.text == word

/-- The lexeme is one of the given words. -/
def isAnyWord (words : List String) (l : Lexeme) : Bool :=
  l.type == "name" && words.contains (lower l.text)

/-- The lexeme is a comment. -/
def isComment (l : Lexeme) : Bool :=
  l.type == "comment"

end Lexeme

/-- The lexemes of pieces that start at the given byte and row. -/
def place (start row : Nat) : List Piece → List Lexeme
  | [] => []
  | piece :: rest =>
    let text := String.ofList piece.text
    let after := place (start + text.utf8ByteSize) (row + piece.text.count '\n') rest
    match piece.type with
    | none => after
    | some type => ⟨type, text, start, row⟩ :: after

/-- The lexemes of a source, which begins outside the tags. -/
def lexemes (source : String) : List Lexeme :=
  place 0 0 (pieces .page source.toList)

end RenderTrace.Php
