import Pushdown.Regex.Basic

/-!
# Patterns

The tree of a written pattern, and the expression it stands for. Flags set inside a
group hold from there to the end of the group, also across its alternatives.

## Operations

* `Pattern.depth`: nesting, which is limited;
* `Pattern.meaning?`: the expression of a pattern; none where a part of the pattern
  could match something that is not a text.
-/

namespace Pushdown

/-- Flags that change the meaning of a pattern. -/
inductive Flag where
  | caseInsensitive
  | multiLine
  | dotMatchesAll
  | swapGreed
  | unicode
  | anyLineEnd
  | ignoreBlanks
deriving DecidableEq

/-- Flags in the order given, each switched on or off. -/
abbrev FlagChanges := List (Flag × Bool)

/-- What a list of changes does to a flag. -/
def FlagChanges.state? (changes : FlagChanges) (flag : Flag) : Option Bool :=
  (changes.find? fun change => change.1 = flag).map Prod.snd

/-- A written character; `byte` marks a two-digit hexadecimal one. -/
structure Literal where
  char : Char
  byte : Bool
deriving DecidableEq

/-- The three short classes. -/
inductive ShortClass where
  | digit
  | space
  | word
deriving DecidableEq

/-- A written character class. -/
inductive ClassPattern where
  | empty
  | literal (literal : Literal)
  | range (first last : Literal)
  | short (kind : ShortClass) (negated : Bool)
  | posix (ranges : List (Char × Char)) (negated : Bool)
  | property (property : Property) (negated : Bool)
  | union (a b : ClassPattern)
  | bracketed (negated : Bool) (inner : ClassPattern)
  | inter (a b : ClassPattern)
  | diff (a b : ClassPattern)
  | symmetricDiff (a b : ClassPattern)

/-- Written assertions. -/
inductive Assertion where
  | lineStart
  | lineEnd
  | textStart
  | textEnd
  | wordBoundary
  | noWordBoundary
  | wordStart
  | wordEnd
  | wordStartHalf
  | wordEndHalf
deriving DecidableEq

/-- A written pattern. -/
inductive Pattern where
  | empty
  | setFlags (changes : FlagChanges)
  | literal (literal : Literal)
  | dot
  | assertion (kind : Assertion)
  | charClass (inner : ClassPattern)
  | repetition (inner : Pattern) (least : Nat) (most : Option Nat)
  | group (changes : FlagChanges) (inner : Pattern)
  | concat (parts : List Pattern)
  | alternation (branches : List Pattern)

/-- The flags in force at a place of a pattern. -/
structure Flags where
  caseInsensitive : Bool
  multiLine : Bool
  dotMatchesAll : Bool
  unicode : Bool
  anyLineEnd : Bool

namespace Flags

/-- The flags at the start of a pattern. -/
def initial : Flags := ⟨false, false, false, true, false⟩

/-- Flags after a list of changes. -/
def apply (flags : Flags) (changes : FlagChanges) : Flags where
  caseInsensitive := (changes.state? .caseInsensitive).getD flags.caseInsensitive
  multiLine := (changes.state? .multiLine).getD flags.multiLine
  dotMatchesAll := (changes.state? .dotMatchesAll).getD flags.dotMatchesAll
  unicode := (changes.state? .unicode).getD flags.unicode
  anyLineEnd := (changes.state? .anyLineEnd).getD flags.anyLineEnd

/-- Which characters make up words. -/
def wordKind (flags : Flags) : WordKind := if flags.unicode then .unicode else .ascii

/-- Close a set under case differences if the flags ask for it. -/
def foldSet (flags : Flags) (set : CharSet) : CharSet :=
  if flags.caseInsensitive then
    if flags.unicode then .folded set else .foldedAscii set
  else set

end Flags

namespace ShortClass

/-- The ASCII members. -/
def asciiSet : ShortClass → CharSet
  | digit => .range '0' '9'
  | space => .union (.range '\t' '\r') (.single ' ')
  | word => .ranges [('0', '9'), ('A', 'Z'), ('_', '_'), ('a', 'z')]

/-- The members. -/
def unicodeSet : ShortClass → CharSet
  | digit => .property .decimalDigit
  | space => .property .blank
  | word => .property .word

/-- The members under the flags. -/
def set (flags : Flags) (kind : ShortClass) : CharSet :=
  if flags.unicode then kind.unicodeSet else kind.asciiSet

end ShortClass

namespace ClassPattern

/-- Number of nested parts. -/
def depth : ClassPattern → Nat
  | bracketed _ inner => inner.depth + 1
  | union a b => max a.depth b.depth
  | inter a b => max a.depth b.depth + 1
  | diff a b => max a.depth b.depth + 1
  | symmetricDiff a b => max a.depth b.depth + 1
  | _ => 0

/-- Whether a character may stand in a class under the flags. -/
def allows (flags : Flags) (literal : Literal) : Bool :=
  flags.unicode || literal.char.toNat < 0x80

/-- The set of a class under the flags. -/
def set? (flags : Flags) : ClassPattern → Option CharSet
  | empty => some .none
  | literal l => if allows flags l then some (.single l.char) else none
  | range first last =>
      if allows flags first && allows flags last then some (.range first.char last.char)
      else none
  | short kind negated => some (.negateIf negated (kind.set flags))
  | posix ranges negated => some (.negateIf negated (flags.foldSet (.ranges ranges)))
  | property p negated =>
      if flags.unicode then some (.negateIf negated (flags.foldSet (.property p))) else none
  | union a b => do
      let a ← a.set? flags
      let b ← b.set? flags
      pure (.union a b)
  | bracketed negated inner => do
      let set ← inner.set? flags
      pure (.negateIf negated (flags.foldSet set))
  | inter a b => do
      let a ← a.set? flags
      let b ← b.set? flags
      pure (.inter (flags.foldSet a) (flags.foldSet b))
  | diff a b => do
      let a ← a.set? flags
      let b ← b.set? flags
      pure (.diff (flags.foldSet a) (flags.foldSet b))
  | symmetricDiff a b => do
      let a ← a.set? flags
      let b ← b.set? flags
      pure (.symmetricDiff (flags.foldSet a) (flags.foldSet b))

/-- Whether a set of bytes stays below 128, where bytes are characters. -/
def staysAscii (set : CharSet) : Bool :=
  (List.range 128).all fun n => !set.contains (Char.ofNat (n + 128))

/-- The set of a class, none if without Unicode it could match a part of a character. -/
def textSet? (flags : Flags) (pattern : ClassPattern) : Option CharSet := do
  let set ← pattern.set? flags
  if flags.unicode then pure set
  else if staysAscii set then pure (.inter set .ascii)
  else none

end ClassPattern

namespace Assertion

/-- The assertion under the flags. -/
def look (flags : Flags) : Assertion → Look
  | lineStart =>
      if flags.multiLine then (if flags.anyLineEnd then .anyLineStart else .lineStart)
      else .textStart
  | lineEnd =>
      if flags.multiLine then (if flags.anyLineEnd then .anyLineEnd else .lineEnd)
      else .textEnd
  | textStart => .textStart
  | textEnd => .textEnd
  | wordBoundary => .wordBoundary flags.wordKind
  | noWordBoundary => .noWordBoundary flags.wordKind
  | wordStart => .wordStart flags.wordKind
  | wordEnd => .wordEnd flags.wordKind
  | wordStartHalf => .wordStartHalf flags.wordKind
  | wordEndHalf => .wordEndHalf flags.wordKind

end Assertion

namespace Pattern

mutual

/-- Number of nested parts. -/
def depth : Pattern → Nat
  | charClass inner => inner.depth
  | repetition inner _ _ => inner.depth + 1
  | group _ inner => inner.depth + 1
  | concat parts => partsDepth parts + 1
  | alternation branches => partsDepth branches + 1
  | _ => 0

def partsDepth : List Pattern → Nat
  | [] => 0
  | p :: ps => max p.depth (partsDepth ps)

end

/-- The largest nesting a pattern may have. -/
def depthLimit : Nat := 250

/-- The expression of a character under the flags. -/
def literalMeaning? (flags : Flags) (literal : Literal) : Option Regex :=
  let c := literal.char
  if flags.unicode then some (.chars (flags.foldSet (.single c)))
  else if literal.byte && 0x80 ≤ c.toNat then none
  else if c.toNat < 0x80 then some (.chars (flags.foldSet (.single c)))
  else some (.chars (.single c))

/-- The expression of a dot under the flags. -/
def dotMeaning? (flags : Flags) : Option Regex :=
  if !flags.unicode then none
  else if flags.dotMatchesAll then some (.chars (.property .any))
  else if flags.anyLineEnd then
    some (.chars (.complement (.union (.single '\n') (.single '\r'))))
  else some (.chars (.complement (.single '\n')))

mutual

/-- The expression of a pattern, and the flags after it. -/
def expression? : Pattern → Flags → Option (Regex × Flags)
  | empty, flags => some (.empty, flags)
  | setFlags changes, flags => some (.empty, flags.apply changes)
  | literal l, flags => (literalMeaning? flags l).map fun r => (r, flags)
  | dot, flags => (dotMeaning? flags).map fun r => (r, flags)
  | assertion kind, flags => some (.look (kind.look flags), flags)
  | charClass inner, flags => (inner.textSet? flags).map fun set => (.chars set, flags)
  | repetition inner least most, flags =>
      (expression? inner flags).map fun (r, flags) => (.repeated r least most, flags)
  | group changes inner, flags =>
      (expression? inner (flags.apply changes)).map fun (r, _) => (r, flags)
  | concat parts, flags => expressionOfParts? parts flags
  | alternation branches, flags => expressionOfBranches? branches flags

def expressionOfParts? : List Pattern → Flags → Option (Regex × Flags)
  | [], flags => some (.empty, flags)
  | [p], flags => expression? p flags
  | p :: ps, flags =>
      match expression? p flags with
      | none => none
      | some (r, flags) =>
          (expressionOfParts? ps flags).map fun (s, flags) => (Regex.followedBy r s, flags)

def expressionOfBranches? : List Pattern → Flags → Option (Regex × Flags)
  | [], flags => some (.empty, flags)
  | [p], flags => expression? p flags
  | p :: ps, flags =>
      match expression? p flags with
      | none => none
      | some (r, flags) =>
          (expressionOfBranches? ps flags).map fun (s, flags) => (Regex.alt r s, flags)

end

/-- The expression of a pattern. -/
def meaning? (pattern : Pattern) : Option Regex :=
  if depthLimit < pattern.depth then none
  else (expression? pattern Flags.initial).map Prod.fst

end Pattern
end Pushdown
