/-
Written forms of literals in a script: the body of a template literal, the body of a single-quoted string, and a
whole string literal with the quote that needs fewer escapes.
-/
import TerseStyle.Text.Basic

namespace TerseStyle.Script

/-! ## Bodies -/

/-- writes plain text for the body of a template literal: no backtick closes it and no interpolation opens -/
def escapeTemplate : Text → Text
  | [] => []
  | '\\' :: rest => '\\' :: '\\' :: escapeTemplate rest
  | '$' :: '{' :: rest => '\\' :: '$' :: '{' :: escapeTemplate rest
  | c :: rest => if c = '\x60' then '\\' :: c :: escapeTemplate rest else c :: escapeTemplate rest

/-- writes plain text for the body of a single-quoted string; line breaks are left as they are -/
def escapeSingleQuoted : Text → Text
  | [] => []
  | c :: rest =>
    if c = '\\' ∨ c = '\'' then '\\' :: c :: escapeSingleQuoted rest else c :: escapeSingleQuoted rest

/-! ## Whole strings -/

/-- the lower-case hexadecimal digit of a number below sixteen -/
def hexDigit (n : Nat) : Char := Nat.digitChar n

/-- writes one character of a string; `follower` is the character after it -/
def escapeCharacter (quote : Char) (follower : Option Char) (c : Char) : Text :=
  if c = quote ∨ c = '\\' then ['\\', c]
  else if c = '\n' then ['\\', 'n']
  else if c = '\r' then ['\\', 'r']
  else if c = '\t' then [c]
  else if c = '\x08' then ['\\', 'b']
  else if c = '\x0c' then ['\\', 'f']
  else if c = '\x0b' then ['\\', 'v']
  else if c = '\x00' then
    if follower.any Char.isDigit then ['\\', 'x', '0', '0'] else ['\\', '0']
  else if c.toNat < 32 then ['\\', 'x', hexDigit (c.toNat / 16), hexDigit (c.toNat % 16)]
  else if c = '\u2028' then "\\u2028".toList
  else if c = '\u2029' then "\\u2029".toList
  else if c = '\ufeff' then "\\uFEFF".toList
  else [c]

/-- writes every character of a string -/
def escapeString (quote : Char) : Text → Text
  | [] => []
  | c :: rest => escapeCharacter quote rest.head? c ++ escapeString quote rest

/-- double quotes, unless they would need more escapes than single ones -/
def quoteFor (value : Text) : Char :=
  if value.count '\'' < value.count '"' then '\'' else '"'

/-- the written form of the string `value` -/
def quoted (value : Text) : Text :=
  let quote := quoteFor value
  quote :: escapeString quote value ++ [quote]

end TerseStyle.Script
