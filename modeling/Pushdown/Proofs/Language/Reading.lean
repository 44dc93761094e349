import Pushdown.Language.Parser
import Pushdown.Proofs.Language.Grammar
import Pushdown.Proofs.Outcome

/-!
# Reading tokens

What the parser does with the tokens before it: which of them lie between two of its states,
when each of the small steps succeeds, and the one loop behind the lists of literals, of map
entries and of arguments.

## Results

* `Scanned.next_eq_ok_iff`, `Scanned.eat_eq_some_iff`, `Scanned.eat_eq_none_iff`,
  `Scanned.expect_eq_ok_iff`, `Scanned.word_eq_ok_iff`, `Scanned.mapKey_eq_ok_iff`: when a
  small step succeeds;
* `Scanned.takes_of_close`, `Scanned.close_of_takes`: what stands before an item of a list;
* `Parser.literals_eq_delimited`, `Parser.mapEntries_eq_delimited`,
  `Parser.arguments_eq_delimited`: the three lists are read by one loop.
-/

namespace Pushdown
namespace Language

open Outcome

namespace Scanned

/-- The tokens without their spans. -/
def kinds (s : Scanned) : List Token := s.tokens.map SpannedToken.token

/-- A state with one more token before it. -/
def push (tok : SpannedToken) (s : Scanned) : Scanned := { s with tokens := tok :: s.tokens }

/-- The tokens that lie between two states. -/
inductive Takes : Scanned → List Token → Scanned → Prop
  | nil (s : Scanned) : Takes s [] s
  | cons {s s' : Scanned} {ts : List Token} (tok : SpannedToken) (h : Takes s ts s') :
      Takes (s.push tok) (tok.token :: ts) s'

/-- The next token is another one, or the source has been read to its end. -/
def Lacks (s : Scanned) (token : Token) : Prop :=
  ∃ next, s.peek? = .ok next ∧ ∀ tok ∈ next, tok.token ≠ token

variable {s s' : Scanned} {tok : SpannedToken} {token closing : Token} {ts us : List Token}

/-! ## Tokens between states -/

theorem Takes.single (tok : SpannedToken) (s : Scanned) : Takes (s.push tok) [tok.token] s :=
  .cons tok (.nil s)

theorem Takes.append {s₁ : Scanned} (h : Takes s ts s₁) (h' : Takes s₁ us s') :
    Takes s (ts ++ us) s' := by
  induction h with
  | nil => exact h'
  | cons tok h ih => exact .cons tok (ih h')

theorem takes_nil_iff : Takes s [] s' ↔ s = s' := by
  constructor
  · rintro ⟨⟩
    rfl
  · rintro rfl
    exact .nil s

theorem takes_cons_iff :
    Takes s (token :: ts) s' ↔ ∃ tok s₁, s = push tok s₁ ∧ tok.token = token ∧ Takes s₁ ts s' := by
  constructor
  · rintro (_ | ⟨tok, h⟩)
    exact ⟨tok, _, rfl, rfl, h⟩
  · rintro ⟨tok, s₁, rfl, rfl, h⟩
    exact .cons tok h

theorem takes_append_iff : Takes s (ts ++ us) s' ↔ ∃ s₁, Takes s ts s₁ ∧ Takes s₁ us s' := by
  constructor
  · intro h
    induction ts generalizing s with
    | nil => exact ⟨s, .nil s, h⟩
    | cons token ts ih =>
        rw [List.cons_append] at h
        obtain ⟨tok, s₁, rfl, rfl, hrest⟩ := takes_cons_iff.mp h
        obtain ⟨s₂, hts, hus⟩ := ih hrest
        exact ⟨s₂, .cons tok hts, hus⟩
  · rintro ⟨s₁, h, h'⟩
    exact h.append h'

theorem Takes.kinds_eq (h : Takes s ts s') : s.kinds = ts ++ s'.kinds := by
  induction h with
  | nil => rfl
  | cons tok h ih => exact congrArg (tok.token :: ·) ih

theorem takes_all (tokens : List SpannedToken) (failure : Option InvalidInput) (size : Nat) :
    Takes ⟨tokens, failure, size⟩ (tokens.map SpannedToken.token) ⟨[], failure, size⟩ := by
  induction tokens with
  | nil => exact .nil _
  | cons tok tokens ih => exact Takes.cons tok ih

theorem lacks_push (h : tok.token ≠ token) : (push tok s).Lacks token :=
  ⟨some tok, rfl, by simpa using h⟩

theorem Takes.lacks {first : Token} (h : Takes s (first :: ts) s') (hne : first ≠ token) :
    s.Lacks token := by
  obtain ⟨tok, s₁, rfl, rfl, -⟩ := takes_cons_iff.mp h
  exact lacks_push hne

/-! ## Small steps -/

theorem next_eq_ok_iff : s.next = .ok (tok, s') ↔ s = s'.push tok := by
  obtain ⟨_ | ⟨t, ts⟩, failure, size⟩ := s
  · cases failure <;> simp [next, push]
  · obtain ⟨ts', failure', size'⟩ := s'
    simp [next, push, and_assoc]

theorem eat_eq_some_iff :
    s.eat token = .ok (some tok, s') ↔ s = s'.push tok ∧ tok.token = token := by
  obtain ⟨_ | ⟨t, ts⟩, failure, size⟩ := s
  · cases failure <;> simp [eat, peek?, push]
  · obtain ⟨ts', failure', size'⟩ := s'
    by_cases h : t.token = token <;> simp [eat, peek?, push, h]
    · grind
    · grind

theorem eat_eq_none_iff : s.eat token = .ok (none, s') ↔ s' = s ∧ s.Lacks token := by
  obtain ⟨_ | ⟨t, ts⟩, failure, size⟩ := s
  · cases failure <;> simp [eat, peek?, Lacks, eq_comm]
  · by_cases h : t.token = token
    · simp [eat, peek?, Lacks, h]
    · have hlacks : Lacks ⟨t :: ts, failure, size⟩ token := ⟨some t, rfl, by simpa using h⟩
      simp [eat, peek?, h, hlacks, eq_comm]

theorem expect_eq_ok_iff :
    s.expect token = .ok (tok, s') ↔ s = s'.push tok ∧ tok.token = token := by
  rw [← next_eq_ok_iff, expect]
  rcases s.next with e | ⟨t, s₁⟩
  · simp
  · by_cases h : t.token = token <;> simp [h]
    · grind
    · grind

theorem expectWith_eq_ok_iff {hint : Hint} :
    s.expectWith token hint = .ok (tok, s') ↔ s = s'.push tok ∧ tok.token = token := by
  rw [← expect_eq_ok_iff, expectWith]
  cases s.expect token <;> simp

theorem word_eq_ok_iff {name : Spanned String} :
    s.word = .ok (name, s') ↔ s = s'.push ⟨.ident name.value, name.span⟩ := by
  rw [← next_eq_ok_iff, word]
  obtain ⟨text, span⟩ := name
  rcases s.next with e | ⟨⟨token, span⟩, s₁⟩
  · simp
  · cases token <;> simp [and_assoc]

theorem mapKey_eq_ok_iff {key : Spanned String} :
    s.mapKey = .ok (key, s') ↔
      ∃ token, s = s'.push ⟨token, key.span⟩ ∧ Bare.IsKey token key.value := by
  simp only [← next_eq_ok_iff]
  obtain ⟨text, span⟩ := key
  constructor
  · intro h
    rw [mapKey] at h
    rcases hnext : s.next with e | ⟨⟨token, span⟩, s₁⟩
    · simp [hnext] at h
    · cases token <;> simp [hnext] at h <;> obtain ⟨⟨rfl, rfl⟩, rfl⟩ := h
      · exact ⟨_, rfl, .word _⟩
      · exact ⟨_, rfl, .string _ _⟩
  · rintro ⟨token, hnext, hkey⟩
    cases hkey <;> rw [mapKey, hnext]

/-! ## What a small step takes -/

theorem takes_of_eat (h : s.eat token = .ok (some tok, s')) : Takes s [token] s' := by
  obtain ⟨rfl, rfl⟩ := eat_eq_some_iff.mp h
  exact .single tok s'

theorem takes_of_expect (h : s.expect token = .ok (tok, s')) : Takes s [token] s' := by
  obtain ⟨rfl, rfl⟩ := expect_eq_ok_iff.mp h
  exact .single tok s'

theorem takes_of_expectWith {hint : Hint} (h : s.expectWith token hint = .ok (tok, s')) :
    Takes s [token] s' := by
  obtain ⟨rfl, rfl⟩ := expectWith_eq_ok_iff.mp h
  exact .single tok s'

theorem takes_of_word {name : Spanned String} (h : s.word = .ok (name, s')) :
    Takes s [.ident name.value] s' :=
  word_eq_ok_iff.mp h ▸ .single ⟨.ident name.value, name.span⟩ s'

theorem takes_of_mapKey {key : Spanned String} (h : s.mapKey = .ok (key, s')) :
    ∃ token, Takes s [token] s' ∧ Bare.IsKey token key.value := by
  obtain ⟨token, rfl, hkey⟩ := mapKey_eq_ok_iff.mp h
  exact ⟨token, .single ⟨token, key.span⟩ s', hkey⟩

/-! ## The small step that takes a token -/

theorem next_of_takes (h : Takes s (token :: ts) s') :
    ∃ span s₁, s.next = .ok (⟨token, span⟩, s₁) ∧ Takes s₁ ts s' := by
  obtain ⟨tok, s₁, hs, rfl, hrest⟩ := takes_cons_iff.mp h
  exact ⟨tok.span, s₁, next_eq_ok_iff.mpr hs, hrest⟩

theorem eat_of_takes (h : Takes s (token :: ts) s') :
    ∃ tok s₁, s.eat token = .ok (some tok, s₁) ∧ Takes s₁ ts s' := by
  obtain ⟨tok, s₁, hs, htok, hrest⟩ := takes_cons_iff.mp h
  exact ⟨tok, s₁, eat_eq_some_iff.mpr ⟨hs, htok⟩, hrest⟩

theorem expect_of_takes (h : Takes s (token :: ts) s') :
    ∃ tok s₁, s.expect token = .ok (tok, s₁) ∧ Takes s₁ ts s' := by
  obtain ⟨tok, s₁, hs, htok, hrest⟩ := takes_cons_iff.mp h
  exact ⟨tok, s₁, expect_eq_ok_iff.mpr ⟨hs, htok⟩, hrest⟩

theorem expectWith_of_takes (hint : Hint) (h : Takes s (token :: ts) s') :
    ∃ tok s₁, s.expectWith token hint = .ok (tok, s₁) ∧ Takes s₁ ts s' := by
  obtain ⟨tok, s₁, hs, htok, hrest⟩ := takes_cons_iff.mp h
  exact ⟨tok, s₁, expectWith_eq_ok_iff.mpr ⟨hs, htok⟩, hrest⟩

theorem word_of_takes {name : String} (h : Takes s (.ident name :: ts) s') :
    ∃ span s₁, s.word = .ok (⟨name, span⟩, s₁) ∧ Takes s₁ ts s' := by
  obtain ⟨⟨_, span⟩, s₁, hs, rfl, hrest⟩ := takes_cons_iff.mp h
  exact ⟨span, s₁, word_eq_ok_iff.mpr hs, hrest⟩

theorem mapKey_of_takes {name : String} (h : Takes s (token :: ts) s')
    (hkey : Bare.IsKey token name) :
    ∃ span s₁, s.mapKey = .ok (⟨name, span⟩, s₁) ∧ Takes s₁ ts s' := by
  obtain ⟨⟨_, span⟩, s₁, hs, rfl, hrest⟩ := takes_cons_iff.mp h
  exact ⟨span, s₁, mapKey_eq_ok_iff.mpr ⟨_, hs, hkey⟩, hrest⟩

theorem peek?_of_takes (h : Takes s (token :: ts) s') :
    ∃ span, s.peek? = .ok (some ⟨token, span⟩) := by
  obtain ⟨tok, s₁, rfl, rfl, -⟩ := takes_cons_iff.mp h
  exact ⟨tok.span, rfl⟩

theorem peek?_eq_ok_none_iff : s.peek? = .ok none ↔ s.tokens = [] ∧ s.failure = none := by
  obtain ⟨_ | ⟨t, ts⟩, failure, size⟩ := s
  · cases failure <;> simp [peek?]
  · simp [peek?]

/-! ## Before an item -/

/-- What stands before an item of a list: a comma, unless the item is the first. -/
def separator : Bool → List Token
  | true => []
  | false => [.comma]

theorem close_eq_some_iff {first : Bool} {stop : Span} :
    s.close closing first = .ok (some stop, s') ↔ s = s'.push ⟨closing, stop⟩ := by
  constructor
  · intro h
    rw [close] at h
    split at h
    · cases h
    · next tok s₁ heat =>
        obtain ⟨hs, rfl⟩ := eat_eq_some_iff.mp heat
        cases h
        exact hs
    · split at h
      · cases h
      · split at h
        · cases h
        · split at h <;> cases h
  · intro h
    rw [close, eat_eq_some_iff.mpr ⟨h, rfl⟩]

theorem takes_of_close {first : Bool} (h : s.close closing first = .ok (none, s')) :
    Takes s (separator first) s' := by
  rw [close] at h
  split at h
  · cases h
  · cases h
  · next s₁ heat =>
      obtain ⟨rfl, -⟩ := eat_eq_none_iff.mp heat
      cases first with
      | true =>
          cases h
          exact .nil _
      | false =>
          simp only [Bool.false_eq_true, if_false] at h
          split at h
          · cases h
          · next tok s₂ hnext =>
              obtain rfl := next_eq_ok_iff.mp hnext
              split at h
              · next htok =>
                  cases h
                  simpa [separator, htok] using Takes.single tok s'
              · cases h

theorem close_of_takes {first : Bool} (h : Takes s (separator first ++ ts) s')
    (hclosing : Bare.Closing closing) (hstarts : Bare.Starts (fun t => ¬ Bare.Closing t) ts) :
    ∃ s₁, s.close closing first = .ok (none, s₁) ∧ Takes s₁ ts s' := by
  cases first with
  | true =>
      obtain ⟨token, rest, rfl, htoken⟩ := hstarts
      have hlacks : s.Lacks closing := h.lacks fun heq => htoken (heq ▸ hclosing)
      exact ⟨s, by rw [close, eat_eq_none_iff.mpr ⟨rfl, hlacks⟩]; rfl, h⟩
  | false =>
      have hlacks : s.Lacks closing := h.lacks fun heq => by
        subst heq
        simp [Bare.Closing] at hclosing
      obtain ⟨tok, s₁, hs, htok, hrest⟩ := takes_cons_iff.mp h
      refine ⟨s₁, ?_, hrest⟩
      rw [close, eat_eq_none_iff.mpr ⟨rfl, hlacks⟩]
      simp [next_eq_ok_iff.mpr hs, htok]

end Scanned

/-! ## Lists -/

section Listed

variable {α : Type} {item : List Token → α → Prop} {first : Bool} {ts us : List Token} {x : α}
  {xs : List α}

/-- A series from its first item on, or what goes on with one. -/
def Listed (item : List Token → α → Prop) : Bool → List Token → List α → Prop
  | true => Series item
  | false => Star (After .comma item)

theorem Listed.nil : Listed item first [] [] := by
  cases first with
  | true => exact Series.nil
  | false => exact Star.nil

theorem Listed.cons (h : item ts x) (hrest : Listed item false us xs) :
    Listed item first (Scanned.separator first ++ (ts ++ us)) (x :: xs) := by
  cases first with
  | true => exact (Series.cons h hrest : Series item (ts ++ us) (x :: xs))
  | false => exact (Star.cons (.intro h) hrest : Star _ (.comma :: ts ++ us) (x :: xs))

theorem Listed.eq_nil_or_cons (h : Listed item first ts xs) :
    (ts = [] ∧ xs = []) ∨
      ∃ ts₁ us x xs₁, ts = Scanned.separator first ++ (ts₁ ++ us) ∧ xs = x :: xs₁ ∧
        item ts₁ x ∧ Listed item false us xs₁ := by
  cases first with
  | true =>
      rcases h with _ | ⟨h, hrest⟩
      · exact .inl ⟨rfl, rfl⟩
      · exact .inr ⟨_, _, _, _, rfl, rfl, h, hrest⟩
  | false =>
      rcases h with _ | ⟨⟨h⟩, hrest⟩
      · exact .inl ⟨rfl, rfl⟩
      · exact .inr ⟨_, _, _, _, rfl, rfl, h, hrest⟩

end Listed

namespace Parser

variable {β : Type} {fuel : Nat} {closing : Token} {first : Bool} {s : Scanned}

/-- A list of items up to its closing token, and the span of that. -/
def delimited (closing : Token) (item : Nat → Scanned → Parsed (β × Scanned)) :
    Nat → Bool → Scanned → Parsed (List β × Span × Scanned)
  | 0, _, s => outOfFuel s
  | fuel + 1, first, s => do
      match ← s.close closing first with
      | (some stop, s) => pure ([], stop, s)
      | (none, s) => do
          let (x, s) ← item fuel s
          let (xs, stop, s) ← delimited closing item fuel false s
          pure (x :: xs, stop, s)

/-- An entry of a map. -/
def mapEntry (fuel : Nat) (s : Scanned) :
    Parsed ((Spanned String × Spanned Literal) × Scanned) := do
  let (key, s) ← s.mapKey
  let (_, s) ← s.expect .colon
  let (value, s) ← literal fuel s
  pure ((key, value), s)

theorem literals_eq_delimited :
    literals fuel closing first s = delimited closing literal fuel first s := by
  induction fuel generalizing first s with
  | zero => rfl
  | succ fuel ih =>
      have hrest : delimited closing literal fuel false = literals fuel closing false :=
        funext fun _ => ih.symm
      rw [delimited, hrest]
      rfl

theorem arguments_eq_delimited :
    arguments fuel first s = delimited .rightParen argument fuel first s := by
  induction fuel generalizing first s with
  | zero => rfl
  | succ fuel ih =>
      have hrest : delimited .rightParen argument fuel false = arguments fuel false :=
        funext fun _ => ih.symm
      rw [delimited, hrest]
      rfl

theorem mapEntries_eq_delimited :
    mapEntries fuel first s = delimited .rightBrace mapEntry fuel first s := by
  induction fuel generalizing first s with
  | zero => rfl
  | succ fuel ih =>
      have hrest : delimited .rightBrace mapEntry fuel false = mapEntries fuel false :=
        funext fun _ => ih.symm
      simp only [delimited, hrest, mapEntry, bind_assoc, pure_bind]
      rfl

end Parser
end Language
end Pushdown
