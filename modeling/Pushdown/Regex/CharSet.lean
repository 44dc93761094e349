import Pushdown.Unicode.CaseFold
import Pushdown.Unicode.Property
import Pushdown.Unicode.Script

/-!
# Sets of characters

The sets that character classes denote, kept as expressions over ranges and named
properties. Membership is decided by the expression.

The named properties are the general categories, the scripts by their long names and four
two-valued ones: letters in the wide sense, upper and lower case, and blanks. Other
two-valued properties, short names of scripts and the ages and breaks of characters are
not in the tables, and a character belongs to one script, without extensions.

## Operations

* `Property.holds`, `Property.ofName?`, `Property.ofPair?`: named properties;
* `CharSet.contains`: membership.
-/

namespace Pushdown

open Unicode

/-- Named properties of characters. -/
inductive Property where
  | any
  | assigned
  | ascii
  | word
  | decimalDigit
  | blank
  | alphabetic
  | uppercase
  | lowercase
  | category (categories : List Category)
  | script (name : String)
deriving DecidableEq

namespace Property

/-- Whether a character has a property. -/
def holds (c : Char) : Property → Bool
  | any => true
  | assigned => Category.of c != .unassigned
  | ascii => c.toNat < 0x80
  | word => isWord c
  | decimalDigit => isDecimalDigit c
  | blank => isBlank c
  | alphabetic => isAlphabetic c
  | uppercase => isUppercase c
  | lowercase => isLowercase c
  | category categories => categories.contains (Category.of c)
  | script name => scriptOf c == name

/-- Names are compared without case, blanks, underscores and hyphens, and without a
leading `is`. -/
def normalize (name : String) : String :=
  let body := (name.toList.filter fun c => !(isBlank c || c = '_' || c = '-')).map Char.toLower
  match body with
  | 'i' :: 's' :: rest => if rest = ['c'] then "isc" else String.ofList rest
  | body => String.ofList body

open Category in
/-- Names of general categories and of groups of them. -/
def categoryNames : List (List String × List Category) :=
  [(["l", "letter"],
      [uppercaseLetter, lowercaseLetter, titlecaseLetter, modifierLetter, otherLetter]),
   (["lc", "casedletter"], [uppercaseLetter, lowercaseLetter, titlecaseLetter]),
   (["lu", "uppercaseletter"], [uppercaseLetter]),
   (["ll", "lowercaseletter"], [lowercaseLetter]),
   (["lt", "titlecaseletter"], [titlecaseLetter]),
   (["lm", "modifierletter"], [modifierLetter]),
   (["lo", "otherletter"], [otherLetter]),
   (["m", "mark", "combiningmark"], [nonspacingMark, spacingMark, enclosingMark]),
   (["mn", "nonspacingmark"], [nonspacingMark]),
   (["mc", "spacingmark"], [spacingMark]),
   (["me", "enclosingmark"], [enclosingMark]),
   (["n", "number"], [decimalNumber, letterNumber, otherNumber]),
   (["nd", "decimalnumber", "digit"], [decimalNumber]),
   (["nl", "letternumber"], [letterNumber]),
   (["no", "othernumber"], [otherNumber]),
   (["p", "punctuation", "punct"],
      [connectorPunctuation, dashPunctuation, openPunctuation, closePunctuation,
        initialPunctuation, finalPunctuation, otherPunctuation]),
   (["pc", "connectorpunctuation"], [connectorPunctuation]),
   (["pd", "dashpunctuation"], [dashPunctuation]),
   (["ps", "openpunctuation"], [openPunctuation]),
   (["pe", "closepunctuation"], [closePunctuation]),
   (["pi", "initialpunctuation"], [initialPunctuation]),
   (["pf", "finalpunctuation"], [finalPunctuation]),
   (["po", "otherpunctuation"], [otherPunctuation]),
   (["s", "symbol"], [mathSymbol, currencySymbol, modifierSymbol, otherSymbol]),
   (["sm", "mathsymbol"], [mathSymbol]),
   (["sc", "currencysymbol"], [currencySymbol]),
   (["sk", "modifiersymbol"], [modifierSymbol]),
   (["so", "othersymbol"], [otherSymbol]),
   (["z", "separator"], [spaceSeparator, lineSeparator, paragraphSeparator]),
   (["zs", "spaceseparator"], [spaceSeparator]),
   (["zl", "lineseparator"], [lineSeparator]),
   (["zp", "paragraphseparator"], [paragraphSeparator]),
   (["c", "other"], [control, format, surrogate, privateUse, unassigned]),
   (["cc", "control", "cntrl"], [control]),
   (["cf", "format"], [format]),
   (["co", "privateuse"], [privateUse]),
   (["cn", "unassigned"], [unassigned])]

/-- The general category of a normalized name. -/
def categoryOf? (name : String) : Option Property :=
  if name = "any" then some any
  else if name = "assigned" then some assigned
  else if name = "ascii" then some ascii
  else
    (categoryNames.find? fun entry => entry.1.contains name).map fun entry => category entry.2

/-- The script of a normalized name. -/
def scriptNamed? (name : String) : Option Property :=
  (scripts.find? fun script => normalize script = name).map script

/-- The two-valued property of a normalized name. -/
def binaryOf? (name : String) : Option Property :=
  if name = "alphabetic" ∨ name = "alpha" then some alphabetic
  else if name = "uppercase" ∨ name = "upper" then some uppercase
  else if name = "lowercase" ∨ name = "lower" then some lowercase
  else if name = "whitespace" ∨ name = "wspace" ∨ name = "space" then some blank
  else none

/-- The property of a name. -/
def ofName? (name : String) : Option Property :=
  let name := normalize name
  (binaryOf? name).orElse fun _ => (categoryOf? name).orElse fun _ => scriptNamed? name

/-- The property of a name and a value. -/
def ofPair? (name value : String) : Option Property :=
  let name := normalize name
  let value := normalize value
  if name = "gc" ∨ name = "generalcategory" then categoryOf? value
  else if name = "sc" ∨ name = "script" ∨ name = "scx" ∨ name = "scriptextensions" then
    scriptNamed? value
  else none

end Property

/-- A set of characters. -/
inductive CharSet where
  | none
  | range (first last : Char)
  | property (property : Property)
  | union (a b : CharSet)
  | inter (a b : CharSet)
  | complement (a : CharSet)
  /-- Characters that fold like a member. -/
  | folded (a : CharSet)
  /-- Characters that differ from a member at most in the case of an ASCII letter. -/
  | foldedAscii (a : CharSet)
deriving DecidableEq

namespace CharSet

/-- Whether a set holds a character. -/
def contains : CharSet → Char → Bool
  | none, _ => false
  | range first last, c => first ≤ c && c ≤ last
  | property p, c => p.holds c
  | union a b, c => a.contains c || b.contains c
  | inter a b, c => a.contains c && b.contains c
  | complement a, c => !a.contains c
  | folded a, c => (variants c).any fun d => a.contains d
  | foldedAscii a, c => a.contains c || a.contains c.toLower || a.contains c.toUpper

/-- The set of one character. -/
def single (c : Char) : CharSet := range c c

/-- The members of a list of ranges. -/
def ranges : List (Char × Char) → CharSet
  | [] => none
  | [(first, last)] => range first last
  | (first, last) :: rest => union (range first last) (ranges rest)

/-- Members of the first set that are not in the second. -/
def diff (a b : CharSet) : CharSet := inter a (complement b)

/-- Members of one of two sets and not of both. -/
def symmetricDiff (a b : CharSet) : CharSet := union (diff a b) (diff b a)

/-- A set or its complement. -/
def negateIf (negated : Bool) (a : CharSet) : CharSet := if negated then complement a else a

/-- The characters below 128. -/
def ascii : CharSet := property .ascii

end CharSet
end Pushdown
