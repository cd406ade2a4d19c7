import PqcScan.Core.Parity
import PqcScan.Library.Lexing

/-!
# Comments and literals in source files

`core/srcstrip.py`: `strip_noncode` blanks what the forms of a language match, and
`code_finditer` keeps the matches of a pattern that start in what is left.
-/

namespace PqcScan
namespace Core

open Library

/-! ## Forms -/

/-- The lexical building blocks. -/
inductive Form
  | dq
  | sqStr
  | char
  | block
  | lineSlash
  | lineHash
  | backtick
  | rustRaw
  | csharpVerbatim
  deriving DecidableEq

/-- `(?:\\.|[^Q\\\n])*Q` with the quote `Q`. -/
def quotedLength (quote : Char) : List Char → Option Nat
  | [] => none
  | char :: text =>
      if char = quote then some 1
      else if char = '\n' then none
      else if char = '\\' then
        match text with
        | [] => none
        | escaped :: text =>
            if escaped = '\n' then none else (quotedLength quote text).map (· + 2)
      else (quotedLength quote text).map (· + 1)

/-- `(?:\\.|[^'\\\n])'`. -/
def charLength : List Char → Option Nat
  | char :: next :: text =>
      if char = '\\' then if next ≠ '\n' ∧ text.head? = some '\'' then some 3 else none
      else if char ≠ '\'' ∧ char ≠ '\n' ∧ next = '\'' then some 2 else none
  | _ => none

/-- `[^\n]*`. -/
def lineLength (text : List Char) : Option Nat := some (text.takeWhile (· != '\n')).length

/-- `(?:""|[^"])*"`: a pair of quotes is given up where no quote follows it. -/
def verbatimLength : List Char → Option Nat
  | [] => none
  | char :: text =>
      if char = '"' then
        match text with
        | [] => some 1
        | next :: text =>
            if next = '"' then some (((verbatimLength text).map (· + 2)).getD 1)
            else some 1
      else (verbatimLength text).map (· + 1)

/-- `(#*)"[\s\S]*?"\1`. -/
def hashedLength (text : List Char) : Option Nat :=
  let hashes := text.takeWhile (· == '#')
  opened (hashes ++ ['"']) (closedBy ('"' :: hashes)) text

namespace Form

/-- How many characters the form matches at the head of a text. -/
def length : Form → List Char → Option Nat
  | dq => opened ['"'] (quotedLength '"')
  | sqStr => opened ['\''] (quotedLength '\'')
  | char => opened ['\''] charLength
  | block => opened ['/', '*'] (closedBy ['*', '/'])
  | lineSlash => opened ['/', '/'] lineLength
  | lineHash => opened ['#'] lineLength
  | backtick => opened ['`'] (closedBy ['`'])
  | rustRaw => fun text =>
      (opened ['b', 'r'] hashedLength text).or (opened ['r'] hashedLength text)
  | csharpVerbatim => opened ['@', '"'] verbatimLength

end Form

/-! ## Stripping -/

/-- `_LANG_FORMS`. -/
def langForms : List (String × List Form) :=
  [("go", [.block, .lineSlash, .backtick, .dq, .char]),
    ("java", [.block, .lineSlash, .dq, .char]),
    ("javascript", [.block, .lineSlash, .backtick, .dq, .sqStr]),
    ("php", [.block, .lineSlash, .lineHash, .dq, .sqStr]),
    ("rust", [.block, .lineSlash, .rustRaw, .dq, .char]),
    ("csharp", [.block, .lineSlash, .csharpVerbatim, .dq, .char])]

/-- The combined pattern of some forms. -/
def combined (forms : List Form) : Matcher Char Unit := fun _ text =>
  (forms.findSome? fun form => form.length text).map fun length => (length, ())

/-- `_pattern_for`. -/
def patternFor (lang : String) : Option (Matcher Char Unit) :=
  (langForms.lookup lang).map combined

/-- A character of a comment or a literal. -/
def blank (char : Char) : Char := if char = '\n' then '\n' else ' '

/-- The source with the matches of a pattern blanked. -/
def stripWith (pattern : Matcher Char Unit) (source : List Char) : List Char :=
  maskSpans blank (pattern.finditer source) source

/-- `strip_noncode`. -/
def stripNoncode (source : List Char) (lang : String) : List Char :=
  match patternFor lang with
  | none => source
  | some pattern => stripWith pattern source

/-- The character at the place is not as it is in the source. -/
def isMasked (text scanText : List Char) (place : Nat) : Bool :=
  decide (place < scanText.length) && text[place]? != scanText[place]?

/-- `code_finditer`. -/
def codeFinditer {γ : Type} (pattern : Matcher Char γ) (text scanText : List Char) :
    List (Found γ) :=
  (pattern.finditer text).filter fun found => !isMasked text scanText found.start

end Core
end PqcScan
