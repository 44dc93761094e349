import Pushdown.Regex.CharSet

/-!
# Regular expressions

Expressions with look-arounds of width zero that see the characters on both sides of a
position. A text is searched by derivatives: after each character the expressions that
are left to be matched are known, and the search ends at the first one that can match
nothing more.

## Operations

* `Regex.nullable`: whether nothing can be matched at a position;
* `Regex.step`: what is left to be matched after one character;
* `Regex.isMatch`: whether some part of a text is matched;
* `Regex.escape`: the expression that matches a text and nothing else.
-/

namespace Pushdown

/-- The characters on both sides of a position; none at an end of the text. -/
structure Surroundings where
  before : Option Char
  after : Option Char

/-- Which characters make up words. -/
inductive WordKind where
  | unicode
  | ascii
deriving DecidableEq

/-- Whether a character belongs to a word. -/
def WordKind.isWord : WordKind → Char → Bool
  | unicode, c => Unicode.isWord c
  | ascii, c => c.isAlphanum || c = '_'

/-- Assertions on a position. -/
inductive Look where
  | textStart
  | textEnd
  | lineStart
  | lineEnd
  /-- Line ends are also carriage returns, alone or before a line feed. -/
  | anyLineStart
  | anyLineEnd
  | wordBoundary (kind : WordKind)
  | noWordBoundary (kind : WordKind)
  | wordStart (kind : WordKind)
  | wordEnd (kind : WordKind)
  | wordStartHalf (kind : WordKind)
  | wordEndHalf (kind : WordKind)
deriving DecidableEq

namespace Look

/-- Whether a neighbour belongs to a word. -/
def inWord (kind : WordKind) : Option Char → Bool
  | some c => kind.isWord c
  | none => false

/-- Whether an assertion holds at a position. -/
def holds (at_ : Surroundings) : Look → Bool
  | textStart => at_.before.isNone
  | textEnd => at_.after.isNone
  | lineStart => at_.before.isNone || at_.before = some '\n'
  | lineEnd => at_.after.isNone || at_.after = some '\n'
  | anyLineStart =>
      at_.before.isNone || at_.before = some '\n' ||
        (at_.before = some '\r' && at_.after != some '\n')
  | anyLineEnd =>
      at_.after.isNone || at_.after = some '\r' ||
        (at_.after = some '\n' && at_.before != some '\r')
  | wordBoundary kind => inWord kind at_.before != inWord kind at_.after
  | noWordBoundary kind => inWord kind at_.before == inWord kind at_.after
  | wordStart kind => !inWord kind at_.before && inWord kind at_.after
  | wordEnd kind => inWord kind at_.before && !inWord kind at_.after
  | wordStartHalf kind => !inWord kind at_.before
  | wordEndHalf kind => !inWord kind at_.after

end Look

/-- A regular expression. -/
inductive Regex where
  | empty
  | look (look : Look)
  | chars (set : CharSet)
  | seq (r s : Regex)
  | alt (r s : Regex)
  /-- At least `least` times, at most `most` times if that is given. -/
  | repeated (r : Regex) (least : Nat) (most : Option Nat)
deriving DecidableEq

namespace Regex

instance : Inhabited Regex := ⟨empty⟩

/-- Whether an expression matches nothing at a position. -/
def nullable (at_ : Surroundings) : Regex → Bool
  | empty => true
  | look l => l.holds at_
  | chars _ => false
  | seq r s => r.nullable at_ && s.nullable at_
  | alt r s => r.nullable at_ || s.nullable at_
  | repeated r least _ => least = 0 || r.nullable at_

/-- One expression after another. -/
def followedBy (r s : Regex) : Regex := if r = empty then s else seq r s

/-- Repetitions left after one of them and `skipped` empty ones before it. -/
def remaining (r : Regex) (least : Nat) (most : Option Nat) (skipped : Nat) : Option Regex :=
  match most with
  | none => some (repeated r (least - 1 - skipped) none)
  | some most =>
      if skipped < most then some (repeated r (least - 1 - skipped) (some (most - 1 - skipped)))
      else none

/-- What can be left to match after a character at a position. -/
def step (at_ : Surroundings) (c : Char) : Regex → List Regex
  | empty => []
  | look _ => []
  | chars set => if set.contains c then [empty] else []
  | seq r s =>
      (r.step at_ c).map (fun r' => followedBy r' s) ++
        (if r.nullable at_ then s.step at_ c else [])
  | alt r s => r.step at_ c ++ s.step at_ c
  | repeated r least most =>
      let skips := if r.nullable at_ then List.range (max least 1) else [0]
      let rests := skips.filterMap (remaining r least most)
      (r.step at_ c).flatMap fun r' => rests.map fun rest => followedBy r' rest

/-- A list without repetitions. -/
def distinct (rs : List Regex) : List Regex :=
  rs.foldl (fun seen r => if seen.contains r then seen else r :: seen) []

/-- Search on from a position, with expressions that are partly matched. -/
def search (r : Regex) : Option Char → List Regex → List Char → Bool
  | before, states, [] => (r :: states).any (nullable ⟨before, none⟩)
  | before, states, c :: rest =>
      let at_ : Surroundings := ⟨before, some c⟩
      let states := r :: states
      if states.any (nullable at_) then true
      else search r (some c) (distinct (states.flatMap (step at_ c))) rest

/-- Whether some part of a text is matched. -/
def isMatch (r : Regex) (text : String) : Bool := search r none [] text.toList

/-- Characters with a meaning of their own in patterns. -/
def isMeta (c : Char) : Bool :=
  ['\\', '.', '+', '*', '?', '(', ')', '|', '[', ']', '\x7b', '\x7d', '^', '$', '#', '&', '-',
    '~'].contains c

/-- The characters of a pattern that matches a text and nothing else. -/
def escapeChars (text : List Char) : List Char :=
  text.flatMap fun c => if isMeta c then ['\\', c] else [c]

/-- The pattern that matches a text and nothing else. -/
def escape (text : String) : String := String.ofList (escapeChars text.toList)

end Regex
end Pushdown
