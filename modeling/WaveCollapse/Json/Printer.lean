import WaveCollapse.Json.Token

/-! # Writing JSON

A document is written as its tokens, each after some blanks. The compact form uses no
blanks; the indented form puts every item and member on a line of its own, two columns
further in than what encloses it. -/

namespace WaveCollapse.Json

/-- A character inside quotes. -/
def escape (c : Char) : List Char :=
  if c = '"' then ['\\', '"']
  else if c = '\\' then ['\\', '\\']
  else if c = '\n' then ['\\', 'n']
  else if c = '\r' then ['\\', 'r']
  else if c = '\t' then ['\\', 't']
  else if c = '\x08' then ['\\', 'b']
  else if c = '\x0c' then ['\\', 'f']
  else if c.toNat < 0x20 then
    ['\\', 'u', '0', '0', Nat.digitChar (c.toNat / 16), Nat.digitChar (c.toNat % 16)]
  else [c]

namespace Token

/-- How a token is spelled. -/
def spell : Token → List Char
  | openBrace => ['\x7b']
  | closeBrace => ['\x7d']
  | openBracket => ['[']
  | closeBracket => [']']
  | colon => [':']
  | comma => [',']
  | null => ['n', 'u', 'l', 'l']
  | bool true => ['t', 'r', 'u', 'e']
  | bool false => ['f', 'a', 'l', 's', 'e']
  | number s => s.toList
  | text content => '"' :: (content.getD "").toList.flatMap escape ++ ['"']

end Token

/-- A token and the blanks before it. -/
abbrev Lexeme := List Char × Token

/-- Which blanks the writer puts in: at the start of a line at some depth, and after a
colon. -/
structure Spacing where
  lineStart : Nat → List Char
  afterColon : List Char

namespace Spacing

/-- No blanks at all. -/
def compact : Spacing := { lineStart := fun _ => [], afterColon := [] }

/-- One item a line, two columns per depth. -/
def indented : Spacing :=
  { lineStart := fun depth => '\n' :: List.replicate (2 * depth) ' ', afterColon := [' '] }

end Spacing

mutual

/-- The tokens of a document at some depth, after the blanks given. -/
def lexemes (sp : Spacing) (depth : Nat) (blanks : List Char) : Json → List Lexeme
  | .null => [(blanks, .null)]
  | .bool b => [(blanks, .bool b)]
  | .number s => [(blanks, .number s)]
  | .text c => [(blanks, .text c)]
  | .list [] => [(blanks, .openBracket), ([], .closeBracket)]
  | .list (v :: vs) =>
    (blanks, .openBracket) :: lexemes sp (depth + 1) (sp.lineStart (depth + 1)) v ++
      itemLexemes sp (depth + 1) vs ++ [(sp.lineStart depth, .closeBracket)]
  | .object [] => [(blanks, .openBrace), ([], .closeBrace)]
  | .object ((n, v) :: ms) =>
    (blanks, .openBrace) :: (sp.lineStart (depth + 1), .text n) :: ([], .colon) ::
      lexemes sp (depth + 1) sp.afterColon v ++
      memberLexemes sp (depth + 1) ms ++ [(sp.lineStart depth, .closeBrace)]

/-- The items after the first, each after a comma. -/
def itemLexemes (sp : Spacing) (depth : Nat) : List Json → List Lexeme
  | [] => []
  | v :: vs =>
    ([], .comma) :: lexemes sp depth (sp.lineStart depth) v ++ itemLexemes sp depth vs

/-- The members after the first, each after a comma. -/
def memberLexemes (sp : Spacing) (depth : Nat) : List (Option String × Json) → List Lexeme
  | [] => []
  | (n, v) :: ms =>
    ([], .comma) :: (sp.lineStart depth, .text n) :: ([], .colon) ::
      lexemes sp depth sp.afterColon v ++ memberLexemes sp depth ms

end

/-- The text of a run of lexemes. -/
def spellAll (ls : List Lexeme) : List Char := ls.flatMap fun (blanks, t) => blanks ++ t.spell

/-- The text of a document. -/
def render (sp : Spacing) (v : Json) : String := String.ofList (spellAll (lexemes sp 0 [] v))

end WaveCollapse.Json
