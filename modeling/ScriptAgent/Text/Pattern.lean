import ScriptAgent.Text.Blank
import ScriptAgent.Text.Search

/-!
# Patterns of texts

A pattern is a sequence of pieces, matched one after the other. A piece that can take more or less
of a text tries the ways to do so in an order of its own, until what follows it in the pattern
matches: white space takes as much as possible, and the characters that are captured are as few as
possible.
-/

namespace ScriptAgent.Text

/-- A piece of a pattern. -/
inductive Piece where
  /-- These characters. -/
  | text (cs : List Char)
  /-- White space, the most of it first. -/
  | blanks
  /-- Any characters, the fewest of them first; they are captured. -/
  | captured

/-- Goes on after white space, as much of it as possible. -/
def greedily {α : Type} (next : List Char → Option α) : List Char → Option α
  | [] => next []
  | c :: cs =>
    if isBlank c then
      match greedily next cs with
      | some found => some found
      | none => next (c :: cs)
    else next (c :: cs)

/-- Goes on after captured characters, as few of them as possible. -/
def lazily (next : List Char → Option (List Char)) : List Char → Option (List Char)
  | [] => next []
  | c :: cs =>
    match next (c :: cs) with
    | some captured => some captured
    | none => (lazily next cs).map (c :: ·)

/-- Matches a pattern at the beginning of a text, and gives what it captures. -/
def capture? : List Piece → List Char → Option (List Char)
  | [] => fun _ => some []
  | .text marker :: rest => fun cs => (afterBeginning? marker cs).bind (capture? rest)
  | .blanks :: rest => greedily (capture? rest)
  | .captured :: rest => lazily (capture? rest)

/-- What a pattern captures at the first place of a text where it matches. -/
def search? (pattern : List Piece) : List Char → Option (List Char)
  | [] => capture? pattern []
  | c :: cs =>
    match capture? pattern (c :: cs) with
    | some captured => some captured
    | none => search? pattern cs

end ScriptAgent.Text
