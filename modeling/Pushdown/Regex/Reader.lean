import Pushdown.Number.Decimal
import Pushdown.Regex.Pattern
import Pushdown.Text.Quoted

/-!
# Reading patterns

A pattern is read from left to right; anything that is not a pattern gives none. With
the flag `x` blanks between the parts of a pattern are passed over, and so is the rest
of a line after `#`.

The language is the one of the expressions that predicates are tested with, apart from
three things. A property that the tables of characters do not have makes a text that is
no pattern here: a script by its short name, or a property such as `Emoji` or `Math`.
A script with extensions is the script alone. And no pattern is refused for the size of
the expression it stands for; only its nesting is limited.

## Operations

* `Pattern.read?`: the tree of a written pattern;
* `Regex.ofPattern?`: the expression of a written pattern.
-/

namespace Pushdown

/-- Rest of a text after its first line. -/
def dropLine : List Char → List Char
  | [] => []
  | '\n' :: rest => rest
  | _ :: rest => dropLine rest

/-- Drop blanks and comments. The fuel bounds the number of comments. -/
def dropBlanks : Nat → List Char → List Char
  | 0, text => text
  | fuel + 1, text =>
      match text.dropWhile Unicode.isBlank with
      | '#' :: rest => dropBlanks fuel (dropLine rest)
      | rest => rest

namespace Pattern

/-- The start of the next part. -/
def skip (ignoreBlanks : Bool) (text : List Char) : List Char :=
  if ignoreBlanks then dropBlanks (text.length + 1) text else text

/-- A character the text must start with. -/
def drop? (c : Char) : List Char → Option (List Char)
  | d :: rest => if d = c then some rest else none
  | [] => none

/-- A decimal number between blanks, at most 32 bits wide. -/
def readCount? (x : Bool) (text : List Char) : Option (Nat × List Char) :=
  let rec digits : Nat → List Char → List Char → List Char × List Char
    | 0, seen, text => (seen, text)
    | fuel + 1, seen, text =>
        match text with
        | c :: rest => if c.isDigit then digits fuel (seen ++ [c]) (skip x rest) else (seen, text)
        | [] => (seen, [])
  let text := text.dropWhile Unicode.isBlank
  let (written, rest) := digits text.length [] text
  let number := readNat written
  if written.isEmpty || 4294967296 ≤ number then none
  else some (number, rest.dropWhile Unicode.isBlank)

/-- The bounds of a counted repetition, after the brace. -/
def readBounds? (x : Bool) (text : List Char) : Option ((Nat × Option Nat) × List Char) := do
  let (least, rest) ← readCount? x (skip x text)
  match rest with
  | '\x7d' :: rest => pure ((least, some least), rest)
  | ',' :: rest =>
      match skip x rest with
      | '\x7d' :: rest => pure ((least, none), rest)
      | rest => do
          let (most, rest) ← readCount? x rest
          let rest ← drop? '\x7d' rest
          if most < least then none else pure ((least, some most), rest)
  | _ => none

/-- Flag letters. -/
def flagOf? : Char → Option Flag
  | 'i' => some .caseInsensitive
  | 'm' => some .multiLine
  | 's' => some .dotMatchesAll
  | 'U' => some .swapGreed
  | 'u' => some .unicode
  | 'R' => some .anyLineEnd
  | 'x' => some .ignoreBlanks
  | _ => none

/-- Flags up to the character that ends them. `off` holds the state of a minus: none
before it, and whether a flag has followed it. -/
def readFlags? (changes : FlagChanges) (off : Option Bool) :
    List Char → Option (FlagChanges × Char × List Char)
  | [] => none
  | c :: rest =>
      if c = ':' ∨ c = ')' then
        if off = some false then none else some (changes, c, rest)
      else if c = '-' then
        if off.isSome then none else readFlags? changes (some false) rest
      else
        match flagOf? c with
        | none => none
        | some flag =>
            if (changes.state? flag).isSome then none
            else readFlags? (changes ++ [(flag, off.isNone)]) (off.map fun _ => true) rest

/-- Whether a character may stand in the name of a group. -/
def isNameChar (first : Bool) (c : Char) : Bool :=
  if first then c = '_' || Unicode.isAlphabetic c
  else c = '_' || c = '.' || c = '[' || c = ']' || Unicode.isAlphanumeric c

/-- The name of a group up to its closing angle bracket. -/
def readName? (seen : List Char) : List Char → Option (String × List Char)
  | [] => none
  | c :: rest =>
      if c = '>' then
        if seen.isEmpty then none else some (String.ofList seen, rest)
      else if isNameChar seen.isEmpty c then readName? (seen ++ [c]) rest
      else none

/-- What an opening parenthesis starts. -/
inductive Opening where
  /-- Flags for the rest of the enclosing group. -/
  | flags (changes : FlagChanges)
  /-- A group, with its name if it has one. -/
  | group (changes : FlagChanges) (name : Option String)

/-- What follows an opening parenthesis. -/
def readOpening? (x : Bool) (text : List Char) : Option (Opening × List Char) :=
  match skip x text with
  | '?' :: 'P' :: '<' :: rest =>
      (readName? [] rest).map fun (name, rest) => (.group [] (some name), rest)
  | '?' :: '<' :: '=' :: _ => none
  | '?' :: '<' :: '!' :: _ => none
  | '?' :: '<' :: rest =>
      (readName? [] rest).map fun (name, rest) => (.group [] (some name), rest)
  | '?' :: rest =>
      match readFlags? [] none rest with
      | none => none
      | some (changes, c, rest) =>
          if c = ':' then some (.group changes none, rest)
          else if changes.isEmpty then none
          else some (.flags changes, rest)
  | rest => some (.group [] none, rest)

/-- What a backslash or a character stands for. -/
inductive Primitive where
  | literal (literal : Literal)
  | assertion (kind : Assertion)
  | dot
  | short (kind : ShortClass) (negated : Bool)
  | property (property : Property) (negated : Bool)

/-- The pattern of a primitive. -/
def Primitive.pattern : Primitive → Pattern
  | literal l => .literal l
  | assertion kind => .assertion kind
  | dot => .dot
  | short kind negated => .charClass (.short kind negated)
  | property p negated => .charClass (.property p negated)

/-- The class item of a primitive; assertions and dots are none. -/
def Primitive.classItem? : Primitive → Option ClassPattern
  | literal l => some (.literal l)
  | short kind negated => some (.short kind negated)
  | property p negated => some (.property p negated)
  | assertion _ => none
  | dot => none

/-- The end of a range. -/
def Primitive.literal? : Primitive → Option Literal
  | literal l => some l
  | _ => none

/-- Hexadecimal digits to a number. -/
def readHex? (digits : List Char) : Option Nat :=
  digits.foldl (fun n c => do
    let n ← n
    let d ← Quoted.hexValue? c
    pure (16 * n + d)) (some 0)

/-- The character of a number. -/
def scalarLiteral? (byte : Bool) (n : Nat) : Option Literal :=
  (Quoted.scalar? n).map fun c => ⟨c, byte⟩

/-- Digits of a braced hexadecimal number up to the brace. -/
def hexBraced? (x : Bool) : Nat → List Char → List Char → Option (List Char × List Char)
  | 0, _, _ => none
  | fuel + 1, seen, text =>
      match skip x text with
      | [] => none
      | c :: rest =>
          if c = '\x7d' then some (seen, rest) else hexBraced? x fuel (seen ++ [c]) rest

/-- A fixed number of hexadecimal digits. -/
def hexFixed? (x : Bool) : Nat → List Char → List Char → Option (List Char × List Char)
  | 0, seen, text => some (seen, text)
  | count + 1, seen, text =>
      match skip x text with
      | [] => none
      | c :: rest => hexFixed? x count (seen ++ [c]) rest

/-- A hexadecimal escape, after its letter. -/
def readHexEscape? (x : Bool) (count : Nat) (text : List Char) :
    Option (Primitive × List Char) :=
  match skip x text with
  | '\x7b' :: rest => do
      let (digits, rest) ← hexBraced? x (rest.length + 1) [] rest
      if digits.isEmpty then none
      else do
        let n ← readHex? digits
        let l ← scalarLiteral? false n
        pure (.literal l, rest)
  | text => do
      let (digits, rest) ← hexFixed? x count [] text
      let n ← readHex? digits
      let l ← scalarLiteral? (count = 2) n
      pure (.literal l, rest)

/-- The two sides of the first separator in a property name. -/
def splitProperty (name : List Char) : Option (Bool × String × String) :=
  let rec find (seen : List Char) : List Char → Option (List Char × List Char)
    | [] => none
    | '!' :: '=' :: rest => some (seen, rest)
    | c :: rest => find (seen ++ [c]) rest
  match find [] name with
  | some (before, after) => some (true, String.ofList before, String.ofList after)
  | none =>
      let cut (c : Char) : Option (Bool × String × String) :=
        if name.contains c then
          some (false, String.ofList (name.takeWhile (· != c)),
            String.ofList ((name.dropWhile (· != c)).drop 1))
        else none
      (cut ':').orElse fun _ => cut '='

/-- The property of a written name. -/
def propertyOf? (name : List Char) : Option (Bool × Property) :=
  match splitProperty name with
  | some (negated, property, value) =>
      (Property.ofPair? property value).map fun p => (negated, p)
  | none => (Property.ofName? (String.ofList name)).map fun p => (false, p)

/-- A property escape, after its letter. -/
def readPropertyEscape? (x : Bool) (negated : Bool) (text : List Char) :
    Option (Primitive × List Char) :=
  match skip x text with
  | [] => none
  | '\\' :: _ => none
  | '\x7b' :: rest => do
      let (name, rest) ← hexBraced? x (rest.length + 1) [] rest
      let (inverted, p) ← propertyOf? name
      pure (.property p (negated != inverted), rest)
  | c :: rest => do
      let (_, p) ← propertyOf? [c]
      pure (.property p negated, rest)

/-- A special word boundary in braces, after `\b`. -/
def readBoundary? (x : Bool) (text : List Char) : Option (Primitive × List Char) :=
  let isNameChar (c : Char) : Bool := c.isAlpha || c = '-'
  let rec name : Nat → List Char → List Char → List Char × List Char
    | 0, seen, text => (seen, text)
    | fuel + 1, seen, text =>
        match text with
        | c :: rest =>
            if isNameChar c then name fuel (seen ++ [c]) (skip x rest) else (seen, text)
        | [] => (seen, [])
  match text with
  | '\x7b' :: rest =>
      match skip x rest with
      | [] => none
      | c :: after =>
          if !isNameChar c then some (.assertion .wordBoundary, text)
          else
            let (written, rest) := name (rest.length + 1) [] (c :: after)
            match drop? '\x7d' rest, String.ofList written with
            | some rest, "start" => some (.assertion .wordStart, rest)
            | some rest, "end" => some (.assertion .wordEnd, rest)
            | some rest, "start-half" => some (.assertion .wordStartHalf, rest)
            | some rest, "end-half" => some (.assertion .wordEndHalf, rest)
            | _, _ => none
  | text => some (.assertion .wordBoundary, text)

/-- Whether a character may be escaped without need. -/
def isEscapable (c : Char) : Bool :=
  Regex.isMeta c || (c.toNat < 0x80 && !c.isAlphanum && c != '<' && c != '>')

/-- What follows a backslash. -/
def readEscape? (x : Bool) : List Char → Option (Primitive × List Char)
  | [] => none
  | c :: rest =>
      let plain (d : Char) : Option (Primitive × List Char) :=
        some (.literal ⟨d, false⟩, rest)
      if c.isDigit then none
      else if c = 'x' then readHexEscape? x 2 rest
      else if c = 'u' then readHexEscape? x 4 rest
      else if c = 'U' then readHexEscape? x 8 rest
      else if c = 'p' then readPropertyEscape? x false rest
      else if c = 'P' then readPropertyEscape? x true rest
      else if c = 'd' then some (.short .digit false, rest)
      else if c = 'D' then some (.short .digit true, rest)
      else if c = 's' then some (.short .space false, rest)
      else if c = 'S' then some (.short .space true, rest)
      else if c = 'w' then some (.short .word false, rest)
      else if c = 'W' then some (.short .word true, rest)
      else if isEscapable c then plain c
      else if c = 'a' then plain '\x07'
      else if c = 'f' then plain '\x0c'
      else if c = 't' then plain '\t'
      else if c = 'n' then plain '\n'
      else if c = 'r' then plain '\r'
      else if c = 'v' then plain '\x0b'
      else if c = 'A' then some (.assertion .textStart, rest)
      else if c = 'z' then some (.assertion .textEnd, rest)
      else if c = 'b' then readBoundary? x rest
      else if c = 'B' then some (.assertion .noWordBoundary, rest)
      else if c = '<' then some (.assertion .wordStart, rest)
      else if c = '>' then some (.assertion .wordEnd, rest)
      else none

/-- Named classes within brackets. -/
def posixRanges? (name : String) : Option (List (Char × Char)) :=
  match name with
  | "alnum" => some [('0', '9'), ('A', 'Z'), ('a', 'z')]
  | "alpha" => some [('A', 'Z'), ('a', 'z')]
  | "ascii" => some [('\x00', '\x7f')]
  | "blank" => some [('\t', '\t'), (' ', ' ')]
  | "cntrl" => some [('\x00', '\x1f'), ('\x7f', '\x7f')]
  | "digit" => some [('0', '9')]
  | "graph" => some [('!', '~')]
  | "lower" => some [('a', 'z')]
  | "print" => some [(' ', '~')]
  | "punct" => some [('!', '/'), (':', '@'), ('[', '\x60'), ('\x7b', '~')]
  | "space" => some [('\t', '\r'), (' ', ' ')]
  | "upper" => some [('A', 'Z')]
  | "word" => some [('0', '9'), ('A', 'Z'), ('_', '_'), ('a', 'z')]
  | "xdigit" => some [('0', '9'), ('A', 'F'), ('a', 'f')]
  | _ => none

/-- A named class, after its opening bracket; none if it is not one. -/
def readPosix? : List Char → Option (ClassPattern × List Char)
  | ':' :: rest =>
      let (negated, rest) := match rest with
        | '^' :: rest => (true, rest)
        | rest => (false, rest)
      match rest.dropWhile (· != ':') with
      | ':' :: ']' :: after =>
          (posixRanges? (String.ofList (rest.takeWhile (· != ':')))).map fun ranges =>
            (.posix ranges negated, after)
      | _ => none
  | _ => none

/-- One item of a class that is no class of its own, and what follows it. -/
def readClassItem? (x : Bool) : List Char → Option (Primitive × List Char)
  | [] => none
  | '\\' :: rest => readEscape? x rest
  | c :: rest => some (.literal ⟨c, false⟩, rest)

/-- An item or a range of a class. -/
def readClassRange? (x : Bool) (text : List Char) : Option (ClassPattern × List Char) := do
  let (first, rest) ← readClassItem? x text
  match skip x rest with
  | [] => none
  | '-' :: after =>
      let next := skip x after
      if next.head? = some ']' ∨ next.head? = some '-' then
        let item ← first.classItem?
        pure (item, '-' :: after)
      else do
        let (last, rest) ← readClassItem? x next
        let first ← first.literal?
        let last ← last.literal?
        if last.char < first.char then none else pure (.range first last, rest)
  | rest => do
      let item ← first.classItem?
      pure (item, rest)

/-- Operators between the parts of a class. -/
inductive ClassOp where
  | inter
  | diff
  | symmetricDiff

/-- Two parts joined by an operator. -/
def ClassOp.apply : ClassOp → ClassPattern → ClassPattern → ClassPattern
  | inter, a, b => .inter a b
  | diff, a, b => .diff a b
  | symmetricDiff, a, b => .symmetricDiff a b

/-- A part joined to the one before it, if there is one. -/
def joinPending (pending : Option (ClassPattern × ClassOp)) (b : ClassPattern) : ClassPattern :=
  match pending with
  | some (a, op) => op.apply a b
  | none => b

/-- The members of a class read so far. -/
def unionOf : List ClassPattern → ClassPattern
  | [] => .empty
  | [item] => item
  | item :: items => .union item (unionOf items)

/-- Leading hyphens of a class. -/
def leadingHyphens (x : Bool) : Nat → List ClassPattern → List Char →
    List ClassPattern × List Char
  | 0, items, text => (items, text)
  | fuel + 1, items, text =>
      match text with
      | '-' :: rest => leadingHyphens x fuel (items ++ [.literal ⟨'-', false⟩]) (skip x rest)
      | text => (items, text)

/-- What follows the opening bracket of a class: whether it is negated, the leading
hyphens, and a closing bracket that comes first and is a member. -/
def readClassOpening? (x : Bool) (text : List Char) :
    Option (Bool × List ClassPattern × List Char) :=
  let text := skip x text
  let (negated, text) := match text with
    | '^' :: rest => (true, skip x rest)
    | text => (false, text)
  let (items, text) := leadingHyphens x text.length [] text
  let (items, text) : List ClassPattern × List Char := match items, text with
    | [], ']' :: rest => ([.literal ⟨']', false⟩], skip x rest)
    | items, text => (items, text)
  if text.isEmpty then none else some (negated, items, text)

/-- The members of a class up to its closing bracket. -/
def readClass? (x : Bool) : Nat → Option (ClassPattern × ClassOp) → List ClassPattern →
    List Char → Option (ClassPattern × List Char)
  | 0, _, _, _ => none
  | fuel + 1, pending, items, text =>
      let operator (op : ClassOp) (rest : List Char) : Option (ClassPattern × List Char) :=
        readClass? x fuel (some (joinPending pending (unionOf items), op)) [] rest
      match skip x text with
      | [] => none
      | ']' :: rest => some (joinPending pending (unionOf items), rest)
      | '[' :: rest =>
          match readPosix? rest with
          | some (item, rest) => readClass? x fuel pending (items ++ [item]) rest
          | none =>
              match readClassOpening? x rest with
              | none => none
              | some (negated, inner, rest) =>
                  match readClass? x fuel none inner rest with
                  | none => none
                  | some (inner, rest) =>
                      readClass? x fuel pending (items ++ [.bracketed negated inner]) rest
      | '&' :: '&' :: rest => operator .inter rest
      | '-' :: '-' :: rest => operator .diff rest
      | '~' :: '~' :: rest => operator .symmetricDiff rest
      | text =>
          match readClassRange? x text with
          | none => none
          | some (item, rest) => readClass? x fuel pending (items ++ [item]) rest

/-- A class, after its opening bracket. -/
def readBracketed? (x : Bool) (text : List Char) : Option (Pattern × List Char) := do
  let (negated, items, rest) ← readClassOpening? x text
  let (inner, rest) ← readClass? x (2 * text.length + 2) none items rest
  pure (.charClass (.bracketed negated inner), rest)

/-- The last part repeated; flags cannot be. -/
def repeatLast? (least : Nat) (most : Option Nat) : List Pattern → Option (List Pattern)
  | [] => none
  | .setFlags _ :: _ => none
  | p :: ps => some (.repetition p least most :: ps)

/-- A question mark after a repetition. -/
def skipLazy : List Char → List Char
  | '?' :: rest => rest
  | rest => rest

/-- Parts in reverse as one pattern. -/
def concatOf : List Pattern → Pattern
  | [] => .empty
  | [p] => p
  | ps => .concat ps.reverse

/-- Branches in reverse, and the parts of the last one. -/
def alternationOf (branches : List Pattern) (parts : List Pattern) : Pattern :=
  if branches.isEmpty then concatOf parts
  else .alternation (concatOf parts :: branches).reverse

/-- Where reading a pattern stands. -/
structure Progress where
  /-- Blanks are passed over. -/
  ignoreBlanks : Bool
  /-- Finished branches, last first. -/
  branches : List Pattern
  /-- Parts of the branch being read, last first. -/
  parts : List Pattern
  /-- Names given to groups. -/
  names : List String

/-- A pattern up to its end or to a closing parenthesis, which is not dropped, and the
names given to groups. -/
def readParts? : Nat → Progress → List Char → Option (Pattern × List String × List Char)
  | 0, _, _ => none
  | fuel + 1, s, text =>
      let x := s.ignoreBlanks
      let push (p : Pattern) (rest : List Char) : Option (Pattern × List String × List Char) :=
        readParts? fuel { s with parts := p :: s.parts } rest
      let repeated (least : Nat) (most : Option Nat) (rest : List Char) :
          Option (Pattern × List String × List Char) :=
        match repeatLast? least most s.parts with
        | some parts => readParts? fuel { s with parts := parts } (skipLazy rest)
        | none => none
      match skip x text with
      | [] => some (alternationOf s.branches s.parts, s.names, [])
      | ')' :: rest => some (alternationOf s.branches s.parts, s.names, ')' :: rest)
      | '|' :: rest =>
          readParts? fuel { s with branches := concatOf s.parts :: s.branches, parts := [] } rest
      | '(' :: rest =>
          match readOpening? x rest with
          | none => none
          | some (.flags changes, rest) =>
              readParts? fuel
                { s with
                  ignoreBlanks := (changes.state? .ignoreBlanks).getD x
                  parts := .setFlags changes :: s.parts } rest
          | some (.group changes name, rest) =>
              let names := name.toList ++ s.names
              if name.any s.names.contains then none
              else
                let inner := (changes.state? .ignoreBlanks).getD x
                match readParts? fuel ⟨inner, [], [], names⟩ rest with
                | some (p, names, ')' :: rest) =>
                    readParts? fuel
                      { s with parts := .group changes p :: s.parts, names := names } rest
                | _ => none
      | '[' :: rest =>
          match readBracketed? x rest with
          | some (p, rest) => push p rest
          | none => none
      | '?' :: rest => repeated 0 (some 1) rest
      | '*' :: rest => repeated 0 none rest
      | '+' :: rest => repeated 1 none rest
      | '\x7b' :: rest =>
          match readBounds? x rest with
          | some ((least, most), rest) => repeated least most (skip x rest)
          | none => none
      | '\\' :: rest =>
          match readEscape? x rest with
          | some (p, rest) => push p.pattern rest
          | none => none
      | '.' :: rest => push .dot rest
      | '^' :: rest => push (.assertion .lineStart) rest
      | '$' :: rest => push (.assertion .lineEnd) rest
      | c :: rest => push (.literal ⟨c, false⟩) rest

/-- The tree of a written pattern. -/
def read? (text : String) : Option Pattern :=
  let chars := text.toList
  match readParts? (2 * chars.length + 2) ⟨false, [], [], []⟩ chars with
  | some (p, _, []) => some p
  | _ => none

end Pattern

/-- The expression of a written pattern. -/
def Regex.ofPattern? (text : String) : Option Regex :=
  (Pattern.read? text).bind Pattern.meaning?

end Pushdown
