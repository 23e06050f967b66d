import ScriptAgent.Text.Classes

/-!
# White space and lines

White space in the sense of the character database, and the ways in which texts are stripped and
cut into lines.

* `strip` removes white space at both ends (`strip_strip`);
* `splitLines` cuts at every line boundary of the character database, a carriage return with a
  line feed counting once;
* `dedent` removes the margin that the lines of a documentation text have in common.
-/

namespace ScriptAgent.Text

/-- Whether a character is white space. -/
def isBlank (c : Char) : Bool :=
  inRanges [9, 14, 28, 33, 133, 134, 160, 161, 5760, 5761, 8192, 8203, 8232, 8234, 8239, 8240,
    8287, 8288, 12288, 12289] c.toNat

/-- Removes white space at the beginning. -/
def stripLeft (cs : List Char) : List Char := cs.dropWhile isBlank

/-- Removes white space at the end. -/
def stripRight (cs : List Char) : List Char := (cs.reverse.dropWhile isBlank).reverse

/-- Removes white space at both ends. -/
def stripChars (cs : List Char) : List Char := stripRight (stripLeft cs)

/-- Removes white space at both ends of a text. -/
def strip (s : String) : String := String.ofList (stripChars s.toList)

/-- Whether a line ends at a character. -/
def isLineEnd (c : Char) : Bool :=
  inRanges [10, 14, 28, 31, 133, 134, 8232, 8234] c.toNat

/-- Cuts a text into lines, without their ends; `line` is the beginning of the current one in
reverse. -/
def linesFrom (line : List Char) : List Char → List (List Char)
  | [] => if line.isEmpty then [] else [line.reverse]
  | '\r' :: '\n' :: rest => line.reverse :: linesFrom [] rest
  | c :: rest => if isLineEnd c then line.reverse :: linesFrom [] rest else linesFrom (c :: line) rest

/-- The lines of a text. -/
def splitLines (cs : List Char) : List (List Char) := linesFrom [] cs

/-- Cuts a text at every occurrence of a character. -/
def splitAt (sep : Char) : List Char → List (List Char)
  | [] => [[]]
  | c :: rest =>
    if c = sep then [] :: splitAt sep rest
    else
      match splitAt sep rest with
      | [] => [[c]]
      | piece :: more => (c :: piece) :: more

/-- Joins pieces with a separator between them. -/
def joinWith (sep : List Char) : List (List Char) → List Char
  | [] => []
  | [piece] => piece
  | piece :: rest => piece ++ sep ++ joinWith sep rest

/-! ## Documentation texts -/

/-- Replaces tabs by blanks up to the next column that is a multiple of eight. -/
def expandTabs (column : Nat) : List Char → List Char
  | [] => []
  | '\t' :: rest =>
    let n := 8 - column % 8
    List.replicate n ' ' ++ expandTabs (column + n) rest
  | c :: rest =>
    c :: expandTabs (if c = '\n' || c = '\r' then 0 else column + 1) rest

/-- The number of characters before the first one that is not white space. -/
def indentOf (line : List Char) : Nat := (line.takeWhile isBlank).length

/-- The margin that all lines but the blank ones have in common. -/
def commonMargin : List (List Char) → Option Nat
  | [] => none
  | line :: rest =>
    if line.all isBlank then commonMargin rest
    else
      match commonMargin rest with
      | some m => some (min (indentOf line) m)
      | none => some (indentOf line)

/-- Cleans a documentation text: the first line is stripped on the left, the margin of the other
lines is removed, and empty lines at both ends are dropped. -/
def dedent (text : List Char) : List Char :=
  match splitAt '\n' (expandTabs 0 text) with
  | [] => []
  | first :: rest =>
    let rest :=
      match commonMargin rest with
      | some m => rest.map (·.drop m)
      | none => rest
    let lines := stripLeft first :: rest
    let lines := (lines.reverse.dropWhile List.isEmpty).reverse.dropWhile List.isEmpty
    joinWith ['\n'] lines

end ScriptAgent.Text
