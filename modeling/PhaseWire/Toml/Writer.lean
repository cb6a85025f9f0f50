import PhaseWire.Fault
import PhaseWire.Toml.Lexeme

/-
# Writing TOML documents

A document is written as sections of keys with simple values.  A text is
quoted in the plainest way that shows it as it is: in double quotes, in
single quotes, or in three of either.  Only a text that none of them can
show is written with escapes.
-/

namespace PhaseWire.Toml

inductive Scalar
  | text (value : String)
  | integer (value : Int)
  | boolean (value : Bool)
  deriving DecidableEq, Repr

/-- A header and the keys under it. -/
structure Section where
  name : String
  entries : List (String × Scalar)
  deriving DecidableEq, Repr

/-! ## Texts -/

inductive Quoting
  | basic
  | literal
  | basicLines
  | literalLines
  deriving DecidableEq, Repr

def Quoting.hasLines : Quoting → Bool
  | basic | literal => false
  | basicLines | literalLines => true

def Quoting.hasEscapes : Quoting → Bool
  | basic | basicLines => true
  | literal | literalLines => false

/-- What stands before and after a text. -/
def Quoting.delimiter : Quoting → String
  | basic => "\""
  | literal => "'"
  | basicLines => "\"\"\""
  | literalLines => "'''"

def longestRun (mark : Char) : (current longest : Nat) → List Char → Nat
  | current, longest, [] => max current longest
  | current, longest, c :: rest =>
    if c = mark then longestRun mark (current + 1) longest rest
    else longestRun mark 0 (max current longest) rest

def needsEscape (c : Char) : Bool :=
  c ≠ '\n' && !isPrintable c

/-- The plainest quoting that shows a text as it is; if there is none, the one that escapes least. -/
def quotingOf (text : List Char) : Quoting :=
  let hasLines := text.contains '\n'
  let isPlain := !text.any needsEscape
  let isBasic := isPlain && !text.contains '\\'
  let doubles := longestRun '"' 0 0 text
  let singles := longestRun '\'' 0 0 text
  if isBasic ∧ doubles = 0 ∧ !hasLines then .basic
  else if isPlain ∧ singles = 0 ∧ !hasLines then .literal
  else if isBasic ∧ doubles ≤ 2 then .basicLines
  else if isPlain ∧ singles ≤ 2 then .literalLines
  else if hasLines then .basicLines
  else .basic

/-- The escape of a character, if it has one; the end of a line is kept where there are several lines. -/
def escape? (hasLines : Bool) (c : Char) : Option String :=
  if c = '\n' then (if hasLines then none else some "\\n")
  else if c = '\x08' then some "\\b"
  else if c = '\t' then some "\\t"
  else if c = '\x0c' then some "\\f"
  else if c = '\r' then some "\\r"
  else if c = '\\' then some "\\\\"
  else if needsEscape c then some ("\\u" ++ (Text.hexDigits 4 c.toNat).map Char.toUpper)
  else none

/-- A text with its escapes; where there are several lines, two quotes in a row (`quotes` counts
them) need none, since only three end the text. -/
def escapeFrom (hasLines : Bool) : (quotes : Nat) → List Char → String
  | _, [] => ""
  | quotes, '"' :: rest =>
    if hasLines ∧ quotes < 2 then "\"" ++ escapeFrom hasLines (quotes + 1) rest
    else "\\\"" ++ escapeFrom hasLines 0 rest
  | _, c :: rest => (escape? hasLines c).getD (String.singleton c) ++ escapeFrom hasLines 0 rest

/-- A text as it is written; one of several lines starts on a line of its own. -/
def renderText (value : String) : String :=
  let chars := value.toList
  let quoting := quotingOf chars
  let start := if quoting.hasLines ∧ chars.contains '\n' then "\n" else ""
  let body := if quoting.hasEscapes then escapeFrom quoting.hasLines 0 chars else value
  quoting.delimiter ++ start ++ body ++ quoting.delimiter

/-! ## Documents -/

def Scalar.render : Scalar → String
  | text value => renderText value
  | integer value => toString value
  | boolean true => "true"
  | boolean false => "false"

/-- A key and its value on a line. -/
def renderEntry (entry : String × Scalar) : String :=
  entry.1 ++ " = " ++ entry.2.render ++ "\n"

def Section.render (block : Section) : String :=
  "[" ++ block.name ++ "]\n" ++ String.join (block.entries.map renderEntry)

/-- A document: its sections with empty lines between them. -/
def render (sections : List Section) : String :=
  String.intercalate "\n" (sections.map Section.render)

end PhaseWire.Toml
