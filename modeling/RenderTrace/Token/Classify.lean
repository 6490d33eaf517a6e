import RenderTrace.Text.Blank
import RenderTrace.Text.Digit
import RenderTrace.Text.Letter
import RenderTrace.Text.LetterCase
import RenderTrace.Text.Quoted
import RenderTrace.Token

/-!
# The kind of a text

The kind of a token follows from its text, and for comments, strings and opening
tags also from the type of the syntax node it was cut from. The tests run in a
fixed order and the first that holds decides.
-/

namespace RenderTrace.Token.Kind
open Text

/-- Node types whose text is a string whatever it looks like. -/
def stringNodeTypes : List String :=
  ["string", "encapsed_string", "heredoc", "nowdoc"]

/-- Keywords that have a kind of their own. -/
def keywords : List Kind :=
  all.filter fun
    | form _ | function | modifier _ | new => true
    | _ => false

/-- The keyword a text is, letter case ignored. -/
def keyword? (text : String) : Option Kind :=
  let low := lower text
  keywords.find? fun k => k.label == low

/-- A comment opens with two slashes, a slash and a star, or a hash that opens no attribute. -/
def opensComment : List Char → Bool
  | '/' :: '/' :: _ => true
  | '/' :: '*' :: _ => true
  | '#' :: '[' :: _ => false
  | '#' :: _ => true
  | _ => false

/-- A character that may begin a name. -/
def isNameStart (c : Char) : Bool :=
  c.isAlpha || c == '_' || (0x80 ≤ c.toNat && c.toNat ≤ 0xFFFF)

/-- A character that may continue a name. -/
def isNameRest (c : Char) : Bool :=
  isNameStart c || c.isDigit || isSupplementaryWord c

/-- The rest of a name: further characters, and a backslash only before the start of a segment. -/
def continuesName : List Char → Bool
  | [] => true
  | '\\' :: c :: rest => isNameStart c && continuesName rest
  | c :: rest => isNameRest c && continuesName rest

/-- Segments joined by single backslashes. -/
def isSegments : List Char → Bool
  | [] => false
  | c :: rest => isNameStart c && continuesName rest

/-- A simple or qualified name. -/
def isName : List Char → Bool
  | '\\' :: rest => isSegments rest
  | cs => isSegments cs

/-- The characters without one line feed at their end. -/
def dropFinalFeed (cs : List Char) : List Char :=
  if cs.getLast? = some '\n' then cs.dropLast else cs

/-- The kind of a text cut from a node of the given type; the type is empty when there is no node. -/
def ofText (nodeType text : String) : Kind :=
  let cs := text.toList
  if nodeType = "comment" ∨ opensComment cs then comment
  else if nodeType ∈ stringNodeTypes then string
  else if isBlankText text then whitespace
  else match keyword? text with
    | some k => k
    | none =>
      if cs.head? = some '$' ∧ 1 < cs.length then var
      else if cs.head?.any isQuote then string
      else if cs.head?.any Text.isDigit then number
      else if text = "..." then ellipsis
      else if text = "::" then doubleColon
      else if isName (dropFinalFeed cs) then name
      else if nodeType = "php_tag" ∨ cs.take 2 = ['<', '?'] then other
      else punct

end RenderTrace.Token.Kind
