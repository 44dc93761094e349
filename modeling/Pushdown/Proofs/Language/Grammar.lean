import Pushdown.Language.Expr

/-!
# The grammar

The grammar of traversals over tokens, apart from any way to parse it:

* traversal: `IDENT '.' call ('.' call)*`;
* call: `IDENT '(' (argument (',' argument)*)? ')'`;
* argument: `literal | predicate`;
* predicate: `(('P' | 'TextP') '.')? IDENT '(' (literal (',' literal)*)? ')'` and then
  `('.' ('and' | 'or') '(' predicate ')')*`;
* literal: a constant, a number, a string, `'[' (literal (',' literal)*)? ']'`, or
  `'\x7b' (entry (',' entry)*)? '\x7d'` with entries `(IDENT | STRING) ':' literal`.

A derivation relates the tokens of a phrase and its tree. The trees are those of the parser
without spans, in the namespace `Bare`.

## Results

* `Bare.Predicate.Derives.join`: a phrase goes on with a link, whose predicate joins all
  that stands before it.
-/

namespace Pushdown
namespace Language

namespace Bare

/-! ## Trees without spans -/

/-- A literal without spans. -/
inductive Literal where
  | null
  | bool (value : Bool)
  | int (value : Int64)
  | float (value : Double)
  | string (value : String)
  | list (items : List Literal)
  | map (entries : List (String × Literal))

/-- A predicate without spans. -/
inductive Predicate where
  | call (name : String) (arguments : List Literal)
  | and (left right : Predicate)
  | or (left right : Predicate)

/-- An argument of a call without spans. -/
inductive Argument where
  | literal (literal : Literal)
  | predicate (predicate : Predicate)

/-- A call of a step without spans. -/
structure Call where
  name : String
  arguments : List Argument

/-- A traversal without spans. -/
structure Traversal where
  source : String
  start : Call
  steps : List Call

/-- The words that join predicates. -/
inductive Connective where
  | and
  | or

/-- The word of a connective. -/
def Connective.word : Connective → String
  | and => "and"
  | or => "or"

/-- A predicate and what a link joins to it. -/
def Predicate.join (left : Predicate) : Connective × Predicate → Predicate
  | (.and, right) => .and left right
  | (.or, right) => .or left right

end Bare

/-! ## Trees and their spans -/

mutual

/-- A literal without its spans. -/
def Literal.bare : Literal → Bare.Literal
  | .null => .null
  | .bool value => .bool value
  | .int value => .int value
  | .float value => .float value
  | .string value => .string value
  | .list items => .list (Literal.bareItems items)
  | .map entries => .map (Literal.bareEntries entries)

/-- Literals without their spans. -/
def Literal.bareItems : List (Spanned Literal) → List Bare.Literal
  | [] => []
  | ⟨item, _⟩ :: items => Literal.bare item :: Literal.bareItems items

/-- Map entries without their spans. -/
def Literal.bareEntries : List (Spanned String × Spanned Literal) → List (String × Bare.Literal)
  | [] => []
  | (key, ⟨item, _⟩) :: entries =>
      (key.value, Literal.bare item) :: Literal.bareEntries entries

end

/-- A literal in its place, without the place. -/
def Literal.bareItem (item : Spanned Literal) : Bare.Literal := item.value.bare

/-- A map entry without its spans. -/
def Literal.bareEntry (entry : Spanned String × Spanned Literal) : String × Bare.Literal :=
  (entry.1.value, entry.2.value.bare)

theorem Literal.bareItems_eq (items : List (Spanned Literal)) :
    Literal.bareItems items = items.map Literal.bareItem := by
  induction items with
  | nil => rfl
  | cons item items ih => simp [Literal.bareItems, Literal.bareItem, ih]

theorem Literal.bareEntries_eq (entries : List (Spanned String × Spanned Literal)) :
    Literal.bareEntries entries = entries.map Literal.bareEntry := by
  induction entries with
  | nil => rfl
  | cons entry entries ih => simp [Literal.bareEntries, Literal.bareEntry, ih]

/-- A predicate without its spans. -/
def PredicateExpr.bare : PredicateExpr → Bare.Predicate
  | .call name arguments _ => .call name.value (arguments.map Literal.bareItem)
  | .and left right => .and left.bare right.bare
  | .or left right => .or left.bare right.bare

/-- An argument without its spans. -/
def Argument.bare : Argument → Bare.Argument
  | .literal l => .literal (Literal.bareItem l)
  | .predicate p => .predicate p.bare

/-- A call without its spans. -/
def StepCall.bare (call : StepCall) : Bare.Call :=
  ⟨call.name.value, call.arguments.map Argument.bare⟩

/-- A traversal without its spans. -/
def TraversalExpr.bare (expr : TraversalExpr) : Bare.Traversal :=
  ⟨expr.source.value, expr.start.bare, expr.steps.map StepCall.bare⟩

/-! ## Repetition -/

/-- `item*`. -/
inductive Star {α : Type} (item : List Token → α → Prop) : List Token → List α → Prop
  | nil : Star item [] []
  | cons {ts us : List Token} {x : α} {xs : List α} (first : item ts x)
      (rest : Star item us xs) : Star item (ts ++ us) (x :: xs)

/-- `token item`. -/
inductive After {α : Type} (token : Token) (item : List Token → α → Prop) :
    List Token → α → Prop
  | intro {ts : List Token} {x : α} (h : item ts x) : After token item (token :: ts) x

/-- `(item (',' item)*)?`. -/
inductive Series {α : Type} (item : List Token → α → Prop) : List Token → List α → Prop
  | nil : Series item [] []
  | cons {ts us : List Token} {x : α} {xs : List α} (first : item ts x)
      (rest : Star (After .comma item) us xs) : Series item (ts ++ us) (x :: xs)

section Repetition

variable {α : Type} {item : List Token → α → Prop} {ts us : List Token} {x : α} {xs : List α}

theorem Star.concat (h : Star item ts xs) (hx : item us x) : Star item (ts ++ us) (xs ++ [x]) := by
  induction h with
  | nil => simpa using Star.cons hx .nil
  | cons first rest ih =>
      rw [List.append_assoc]
      exact .cons first ih

end Repetition

/-! ## Derivations -/

namespace Bare

/-- The tokens that stand for the key of a map entry. -/
inductive IsKey : Token → String → Prop
  | word (name : String) : IsKey (.ident name) name
  | string (quote : Quote) (text : String) : IsKey (.string quote text) text

mutual

/-- The phrases of a literal. -/
inductive Literal.Derives : List Token → Literal → Prop
  | null : Literal.Derives [.nullWord] .null
  | true : Literal.Derives [.trueWord] (.bool true)
  | false : Literal.Derives [.falseWord] (.bool false)
  | int (value : Int64) : Literal.Derives [.int value] (.int value)
  | float (value : Double) : Literal.Derives [.float value] (.float value)
  | string (quote : Quote) (value : String) :
      Literal.Derives [.string quote value] (.string value)
  | list {ts : List Token} {items : List Literal} (h : Series Literal.Derives ts items) :
      Literal.Derives (.leftBracket :: (ts ++ [.rightBracket])) (.list items)
  | map {ts : List Token} {entries : List (String × Literal)}
      (h : Series Literal.EntryDerives ts entries) :
      Literal.Derives (.leftBrace :: (ts ++ [.rightBrace])) (.map entries)

/-- The phrases of a map entry. -/
inductive Literal.EntryDerives : List Token → String × Literal → Prop
  | intro {key : Token} {name : String} {ts : List Token} {value : Literal}
      (hkey : IsKey key name) (hvalue : Literal.Derives ts value) :
      Literal.EntryDerives (key :: .colon :: ts) (name, value)

end

/-- The phrases of the name of a predicate, with or without a qualifier. -/
inductive Predicate.NameDerives : List Token → String → Prop
  | plain (name : String) : Predicate.NameDerives [.ident name] name
  | qualified {qualifier : String} (h : qualifier = "P" ∨ qualifier = "TextP")
      (name : String) : Predicate.NameDerives [.ident qualifier, .dot, .ident name] name

/-- The phrases of a predicate to which nothing is joined. -/
inductive Predicate.CallDerives : List Token → Predicate → Prop
  | intro {ns ts : List Token} {name : String} {arguments : List Literal}
      (hname : Predicate.NameDerives ns name)
      (harguments : Series Literal.Derives ts arguments) :
      Predicate.CallDerives (ns ++ .leftParen :: (ts ++ [.rightParen])) (.call name arguments)

mutual

/-- The phrases of a predicate. The links join from the left. -/
inductive Predicate.Derives : List Token → Predicate → Prop
  | intro {ts us : List Token} {first : Predicate} {links : List (Connective × Predicate)}
      (hfirst : Predicate.CallDerives ts first) (hlinks : Star Predicate.LinkDerives us links) :
      Predicate.Derives (ts ++ us) (links.foldl Predicate.join first)

/-- The phrases of a connective and the predicate that it joins. -/
inductive Predicate.LinkDerives : List Token → Connective × Predicate → Prop
  | intro {ts : List Token} {right : Predicate} (connective : Connective)
      (hright : Predicate.Derives ts right) :
      Predicate.LinkDerives
        (.dot :: .ident connective.word :: .leftParen :: (ts ++ [.rightParen]))
        (connective, right)

end

/-- The phrases of an argument. -/
inductive Argument.Derives : List Token → Argument → Prop
  | literal {ts : List Token} {l : Literal} (h : Literal.Derives ts l) :
      Argument.Derives ts (.literal l)
  | predicate {ts : List Token} {p : Predicate} (h : Predicate.Derives ts p) :
      Argument.Derives ts (.predicate p)

/-- The phrases of a call. -/
inductive Call.Derives : List Token → Call → Prop
  | intro {ts : List Token} {arguments : List Argument} (name : String)
      (harguments : Series Argument.Derives ts arguments) :
      Call.Derives (.ident name :: .leftParen :: (ts ++ [.rightParen])) ⟨name, arguments⟩

/-- The phrases of a traversal. -/
inductive Traversal.Derives : List Token → Traversal → Prop
  | intro {ts us : List Token} {start : Call} {steps : List Call} (source : String)
      (hstart : Call.Derives ts start) (hsteps : Star (After .dot Call.Derives) us steps) :
      Traversal.Derives (.ident source :: .dot :: (ts ++ us)) ⟨source, start, steps⟩

theorem Predicate.Derives.join {ts us : List Token} {left : Predicate}
    {link : Connective × Predicate} (h : Predicate.Derives ts left)
    (hlink : Predicate.LinkDerives us link) : Predicate.Derives (ts ++ us) (left.join link) := by
  cases h with
  | @intro ts₁ ts₂ first links hfirst hlinks =>
      have h := Predicate.Derives.intro hfirst (hlinks.concat hlink)
      rwa [List.foldl_append, ← List.append_assoc] at h

/-! ## How phrases start -/

/-- Tokens that start no item of a list. -/
def Closing (token : Token) : Prop :=
  token = .rightParen ∨ token = .rightBracket ∨ token = .rightBrace

/-- Phrases that start with some token of a kind. -/
def Starts (kind : Token → Prop) (ts : List Token) : Prop :=
  ∃ token rest, ts = token :: rest ∧ kind token

section Starts

variable {kind kind' : Token → Prop} {ts : List Token}

theorem Starts.mono (h : Starts kind ts) (hkind : ∀ token, kind token → kind' token) :
    Starts kind' ts := by
  obtain ⟨token, rest, rfl, htoken⟩ := h
  exact ⟨token, rest, rfl, hkind token htoken⟩

theorem Starts.append (h : Starts kind ts) (us : List Token) : Starts kind (ts ++ us) := by
  obtain ⟨token, rest, rfl, htoken⟩ := h
  exact ⟨token, rest ++ us, rfl, htoken⟩

theorem Starts.length_pos (h : Starts kind ts) : 0 < ts.length := by
  obtain ⟨token, rest, rfl, -⟩ := h
  simp

end Starts

theorem Literal.Derives.starts {ts : List Token} {l : Literal} (h : Literal.Derives ts l) :
    Starts (fun token => ¬ Closing token ∧ ∀ name, token ≠ .ident name) ts := by
  cases h <;> exact ⟨_, _, rfl, by simp [Closing]⟩

theorem Literal.EntryDerives.starts {ts : List Token} {entry : String × Literal}
    (h : Literal.EntryDerives ts entry) : Starts (fun token => ¬ Closing token) ts := by
  cases h with
  | intro hkey hvalue => cases hkey <;> exact ⟨_, _, rfl, by simp [Closing]⟩

theorem Predicate.Derives.starts {ts : List Token} {p : Predicate} (h : Predicate.Derives ts p) :
    Starts (fun token => ∃ name, token = .ident name) ts := by
  cases h with
  | intro hfirst hlinks =>
      cases hfirst with
      | intro hname harguments => cases hname <;> exact ⟨_, _, rfl, _, rfl⟩

theorem Argument.Derives.starts {ts : List Token} {a : Argument} (h : Argument.Derives ts a) :
    Starts (fun token => ¬ Closing token) ts := by
  cases h with
  | literal h => exact h.starts.mono fun _ htoken => htoken.1
  | predicate h =>
      refine h.starts.mono ?_
      rintro _ ⟨name, rfl⟩
      simp [Closing]

end Bare

end Language
end Pushdown
