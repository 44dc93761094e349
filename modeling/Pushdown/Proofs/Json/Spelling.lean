import Pushdown.Proofs.Filter.Tokens
import Pushdown.Proofs.Json.Numbers

/-!
# Texts of documents

A document is spelled by many texts: blanks may stand around every item, key and value. The reader
takes each of them for the document, with its fields in the order in which they were written. A
number is spelled by a numeral of which the reader makes it.

A document whose numbers can be written is spelled by its own text, as far as numbers that are
written and read come back; if doubles come back as other ones, the text spells the document with
those.

## Results

* `Json.Spells`: the texts of a document;
* `Json.readWith?_of_spells`: such a text is read;
* `Json.spells_compact`, `Json.spells_prettyAt`: what is written is such a text.
-/

namespace Pushdown
namespace Json

open Pushdown.Language (sign)

variable {reading : NumberReading}

/-- Blanks alone. -/
def Blanks (text : List Char) : Prop := ∀ c ∈ text, isBlank c = true

mutual

/-- A text of a document. -/
inductive Spells (reading : NumberReading) : Json → List Char → Prop
  | null : Spells reading .null "null".toList
  | bool (value : Bool) : Spells reading (.bool value) (boolText value).toList
  | number {json : Json} {negative : Bool} (n : Numeral)
      (h : reading negative n.whole n.fraction n.power = some json) :
      Spells reading json (sign negative ++ n.text)
  | string (value : String) : Spells reading (.string value) (Quoted.quote value).toList
  | noItems {blanks : List Char} (h : Blanks blanks) :
      Spells reading (.array []) ('[' :: (blanks ++ [']']))
  | items {items : List Json} {text : List Char} (h : SpellsItems reading items text) :
      Spells reading (.array items) ('[' :: text)
  | noFields {blanks : List Char} (h : Blanks blanks) :
      Spells reading (.object []) ('\x7b' :: (blanks ++ ['\x7d']))
  | fields {fields : List (String × Json)} {text : List Char}
      (h : SpellsFields reading fields text) : Spells reading (.object fields) ('\x7b' :: text)

/-- A text of the items of an array, up to its closing bracket. -/
inductive SpellsItems (reading : NumberReading) : List Json → List Char → Prop
  | last {item : Json} {before text after : List Char} (hbefore : Blanks before)
      (h : Spells reading item text) (hafter : Blanks after) :
      SpellsItems reading [item] (before ++ (text ++ (after ++ [']'])))
  | cons {item : Json} {items : List Json} {before text after rest : List Char}
      (hbefore : Blanks before) (h : Spells reading item text) (hafter : Blanks after)
      (hrest : SpellsItems reading items rest) :
      SpellsItems reading (item :: items) (before ++ (text ++ (after ++ ',' :: rest)))

/-- A text of the fields of an object, up to its closing brace. -/
inductive SpellsFields (reading : NumberReading) : List (String × Json) → List Char → Prop
  | last {key : String} {value : Json} {first second before text after : List Char}
      (hfirst : Blanks first) (hsecond : Blanks second) (hbefore : Blanks before)
      (h : Spells reading value text) (hafter : Blanks after) :
      SpellsFields reading [(key, value)]
        (first ++ ((Quoted.quote key).toList ++
          (second ++ ':' :: (before ++ (text ++ (after ++ ['\x7d']))))))
  | cons {key : String} {value : Json} {fields : List (String × Json)}
      {first second before text after rest : List Char} (hfirst : Blanks first)
      (hsecond : Blanks second) (hbefore : Blanks before) (h : Spells reading value text)
      (hafter : Blanks after) (hrest : SpellsFields reading fields rest) :
      SpellsFields reading ((key, value) :: fields)
        (first ++ ((Quoted.quote key).toList ++
          (second ++ ':' :: (before ++ (text ++ (after ++ ',' :: rest))))))

end

section blanks

variable {blanks text : List Char} {c : Char}

/-- Blanks in front of a text are passed over. -/
theorem skipBlanks_append (h : Blanks blanks) (text : List Char) :
    skipBlanks (blanks ++ text) = skipBlanks text := by
  rw [skipBlanks, List.dropWhile_append_of_pos h, skipBlanks]

theorem skipBlanks_cons (h : isBlank c = false) (text : List Char) :
    skipBlanks (c :: text) = c :: text := by
  have hc : ¬ isBlank c = true := by
    rw [h]
    exact Bool.false_ne_true
  exact List.dropWhile_cons_of_neg hc

theorem skipBlanks_append_cons (hblanks : Blanks blanks) (h : isBlank c = false)
    (text : List Char) : skipBlanks (blanks ++ c :: text) = c :: text := by
  rw [skipBlanks_append hblanks, skipBlanks_cons h]

theorem skipBlanks_skipBlanks (text : List Char) :
    skipBlanks (skipBlanks text) = skipBlanks text := by
  cases h : skipBlanks text with
  | nil => rfl
  | cons c rest =>
      have hhead := List.head?_dropWhile_not isBlank text
      rw [skipBlanks] at h
      rw [h] at hhead
      exact skipBlanks_cons hhead rest

theorem readValue?_skipBlanks (fuel : Nat) (text : List Char) :
    readValue? reading fuel (skipBlanks text) = readValue? reading fuel text := by
  cases fuel with
  | zero => rw [readValue?, readValue?]
  | succ fuel => rw [readValue?, readValue?, skipBlanks_skipBlanks]

theorem readItems?_skipBlanks (fuel : Nat) (text : List Char) :
    readItems? reading fuel (skipBlanks text) = readItems? reading fuel text := by
  cases fuel with
  | zero => rw [readItems?, readItems?]
  | succ fuel => rw [readItems?, readItems?, readValue?_skipBlanks]

theorem readFields?_skipBlanks (fuel : Nat) (text : List Char) :
    readFields? reading fuel (skipBlanks text) = readFields? reading fuel text := by
  cases fuel with
  | zero => rw [readFields?, readFields?]
  | succ fuel => rw [readFields?, readFields?, skipBlanks_skipBlanks]

/-- Blanks in front of a value are passed over. -/
theorem readValue?_append (h : Blanks blanks) (fuel : Nat) (text : List Char) :
    readValue? reading fuel (blanks ++ text) = readValue? reading fuel text := by
  rw [← readValue?_skipBlanks, skipBlanks_append h, readValue?_skipBlanks]

theorem readItems?_append (h : Blanks blanks) (fuel : Nat) (text : List Char) :
    readItems? reading fuel (blanks ++ text) = readItems? reading fuel text := by
  rw [← readItems?_skipBlanks, skipBlanks_append h, readItems?_skipBlanks]

theorem readFields?_append (h : Blanks blanks) (fuel : Nat) (text : List Char) :
    readFields? reading fuel (blanks ++ text) = readFields? reading fuel text := by
  rw [← readFields?_skipBlanks, skipBlanks_append h, readFields?_skipBlanks]

end blanks

section spells

variable {json : Json} {text rest : List Char} {items : List Json}
  {fields : List (String × Json)}

theorem quote_append (value : String) (rest : List Char) :
    (Quoted.quote value).toList ++ rest = '"' :: (Quoted.encode value.toList ++ '"' :: rest) := by
  rw [Quoted.quote, String.toList_ofList, List.cons_append, List.append_assoc]
  rfl

/-- A number starts as no other value does. -/
theorem head_number {c : Char} (hc : c = '-' ∨ c.isDigit = true) :
    isBlank c = false ∧ c ≠ ']' ∧ c ≠ '\x7d' ∧ c ≠ 'n' ∧ c ≠ 't' ∧ c ≠ 'f' ∧ c ≠ '"' ∧ c ≠ '[' ∧
      c ≠ '\x7b' := by
  rcases hc with rfl | hdigit
  · decide
  · exact Text.forall_isDigit (p := fun c => isBlank c = false ∧ c ≠ ']' ∧ c ≠ '\x7d' ∧ c ≠ 'n' ∧
      c ≠ 't' ∧ c ≠ 'f' ∧ c ≠ '"' ∧ c ≠ '[' ∧ c ≠ '\x7b') (by decide) hdigit

/-- A text of a document starts with none of the characters that end one. -/
theorem Spells.head (h : Spells reading json text) :
    ∃ c rest, text = c :: rest ∧ isBlank c = false ∧ c ≠ ']' ∧ c ≠ '\x7d' := by
  cases h with
  | null => exact ⟨'n', _, rfl, by decide⟩
  | bool value => cases value <;> exact ⟨_, _, rfl, by decide⟩
  | @number json negative n h =>
      obtain ⟨c, tail, htext, hc⟩ := n.head negative
      obtain ⟨hblank, hbracket, hbrace, -⟩ := head_number hc
      exact ⟨c, tail, htext, hblank, hbracket, hbrace⟩
  | string value =>
      refine ⟨'"', Quoted.encode value.toList ++ ['"'], ?_, by decide⟩
      rw [Quoted.quote, String.toList_ofList]
  | noItems _ | items _ => exact ⟨'[', _, rfl, by decide⟩
  | noFields _ | fields _ => exact ⟨'\x7b', _, rfl, by decide⟩

/-- Behind blanks, the text of some items does not start with the closing bracket. -/
theorem SpellsItems.head (h : SpellsItems reading items text) (rest : List Char) :
    ∃ c tail, skipBlanks (text ++ rest) = c :: tail ∧ c ≠ ']' := by
  cases h with
  | last hbefore h hafter | cons hbefore h hafter hrest =>
      obtain ⟨c, tail, rfl, hblank, hbracket, -⟩ := h.head
      simp only [List.append_assoc, List.cons_append]
      exact ⟨c, _, skipBlanks_append_cons hbefore hblank _, hbracket⟩

/-- Behind blanks, the text of some fields does not start with the closing brace. -/
theorem SpellsFields.head (h : SpellsFields reading fields text) (rest : List Char) :
    ∃ c tail, skipBlanks (text ++ rest) = c :: tail ∧ c ≠ '\x7d' := by
  cases h with
  | last hfirst hsecond hbefore h hafter | cons hfirst hsecond hbefore h hafter hrest =>
      rw [List.append_assoc, List.append_assoc, quote_append]
      exact ⟨'"', _, skipBlanks_append_cons hfirst (by decide) _, by decide⟩

/-- Behind blanks and what ends a value, no number goes on. -/
theorem ends_append_cons {blanks : List Char} {c : Char} (hblanks : Blanks blanks)
    (hc : c ∈ closing) (rest : List Char) : Ends (blanks ++ c :: rest) := by
  cases blanks with
  | nil =>
      rintro _ ⟨⟩
      exact hc
  | cons blank blanks =>
      rintro _ ⟨⟩
      have hblank : isBlank blank = true := hblanks blank List.mem_cons_self
      simp only [isBlank, Bool.or_eq_true, decide_eq_true_eq] at hblank
      rcases hblank with ((rfl | rfl) | rfl) | rfl <;> decide

theorem length_quote (value : String) : 2 ≤ (Quoted.quote value).toList.length := by
  rw [Quoted.quote, String.toList_ofList, List.length_cons, List.length_append,
    List.length_singleton]
  omega

section opening

variable {fuel : Nat} {tail : List Char} {c : Char}

/-- A number is read where no other document starts. -/
theorem readValue?_of_readNumber? (hc : c = '-' ∨ c.isDigit = true) :
    readValue? reading (fuel + 1) (c :: text) = readNumber? reading (c :: text) := by
  obtain ⟨hblank, -, -, hn, ht, hf, hquote, hbracket, hbrace⟩ := head_number hc
  rw [readValue?, skipBlanks_cons hblank]
  split
  · next heq => exact absurd (List.cons.inj heq).1 hn
  · next heq => exact absurd (List.cons.inj heq).1 ht
  · next heq => exact absurd (List.cons.inj heq).1 hf
  · next heq => exact absurd (List.cons.inj heq).1 hquote
  · next heq => exact absurd (List.cons.inj heq).1 hbracket
  · next heq => exact absurd (List.cons.inj heq).1 hbrace
  · rfl

/-- The number of a numeral. -/
theorem readValue?_numeral {n : Numeral} {negative : Bool}
    (hnumber : reading negative n.whole n.fraction n.power = some json) (hends : Ends rest) :
    readValue? reading (fuel + 1) (sign negative ++ (n.text ++ rest)) = some (json, rest) := by
  obtain ⟨c, tail, htext, hc⟩ := n.head negative
  have hread := n.readNumber?_text reading negative hends
  rw [hnumber] at hread
  rw [← List.append_assoc, htext, List.cons_append, readValue?_of_readNumber? hc,
    ← List.cons_append, ← htext, List.append_assoc, hread]
  rfl

theorem readValue?_quote (fuel : Nat) (text rest : List Char) :
    readValue? reading (fuel + 1) ('"' :: (Quoted.encode text ++ '"' :: rest)) =
      some (string (String.ofList text), rest) := by
  rw [readValue?, skipBlanks_cons (by decide)]
  show (readString? _).map _ = _
  rw [readString?_encode]
  rfl

theorem readValue?_bracket (fuel : Nat) (text : List Char) :
    readValue? reading (fuel + 1) ('[' :: text) =
      match skipBlanks text with
      | ']' :: rest => some (array [], rest)
      | rest => (readItems? reading fuel rest).map fun (items, rest) => (array items, rest) := by
  rw [readValue?, skipBlanks_cons (by decide)]
  rfl

theorem readValue?_brace (fuel : Nat) (text : List Char) :
    readValue? reading (fuel + 1) ('\x7b' :: text) =
      match skipBlanks text with
      | '\x7d' :: rest => some (object [], rest)
      | rest =>
          (readFields? reading fuel rest).map fun (fields, rest) => (object fields, rest) := by
  rw [readValue?, skipBlanks_cons (by decide)]
  rfl

/-- An array that is closed at once. -/
theorem readValue?_noItems (h : skipBlanks text = ']' :: rest) :
    readValue? reading (fuel + 1) ('[' :: text) = some (array [], rest) := by
  rw [readValue?_bracket, h]
  rfl

/-- An array that is not closed at once. -/
theorem readValue?_items (h : skipBlanks text = c :: tail) (hc : c ≠ ']')
    (hread : readItems? reading fuel text = some (items, rest)) :
    readValue? reading (fuel + 1) ('[' :: text) = some (array items, rest) := by
  rw [← readItems?_skipBlanks, h] at hread
  rw [readValue?_bracket, h]
  split
  · next heq =>
    cases heq
    exact absurd rfl hc
  · rw [hread]
    rfl

/-- An object that is closed at once. -/
theorem readValue?_noFields (h : skipBlanks text = '\x7d' :: rest) :
    readValue? reading (fuel + 1) ('\x7b' :: text) = some (object [], rest) := by
  rw [readValue?_brace, h]
  rfl

/-- An object that is not closed at once. -/
theorem readValue?_fields (h : skipBlanks text = c :: tail) (hc : c ≠ '\x7d')
    (hread : readFields? reading fuel text = some (fields, rest)) :
    readValue? reading (fuel + 1) ('\x7b' :: text) = some (object fields, rest) := by
  rw [← readFields?_skipBlanks, h] at hread
  rw [readValue?_brace, h]
  split
  · next heq =>
    cases heq
    exact absurd rfl hc
  · rw [hread]
    rfl

/-- An item of an array is read first, whatever follows it. -/
theorem readItems?_item {item : Json} (hread : readValue? reading fuel text = some (item, tail)) :
    readItems? reading (fuel + 1) text =
      match skipBlanks tail with
      | ']' :: rest => some ([item], rest)
      | ',' :: rest => do
          let (items, rest) ← readItems? reading fuel rest
          pure (item :: items, rest)
      | _ => none := by
  rw [readItems?, hread]
  rfl

/-- The last item of an array. -/
theorem readItems?_last {item : Json} (hread : readValue? reading fuel text = some (item, tail))
    (h : skipBlanks tail = ']' :: rest) :
    readItems? reading (fuel + 1) text = some ([item], rest) := by
  rw [readItems?_item hread, h]
  rfl

/-- An item of an array in front of others. -/
theorem readItems?_cons {item : Json} {after : List Char}
    (hread : readValue? reading fuel text = some (item, tail)) (h : skipBlanks tail = ',' :: after)
    (hrest : readItems? reading fuel after = some (items, rest)) :
    readItems? reading (fuel + 1) text = some (item :: items, rest) := by
  rw [readItems?_item hread, h]
  show (readItems? reading fuel after).bind _ = _
  rw [hrest]
  rfl

/-- A field of an object, up to its value. -/
theorem readFields?_value {key : String} {value : Json} {first second before : List Char}
    (hfirst : Blanks first) (hsecond : Blanks second) (hbefore : Blanks before)
    (hread : readValue? reading fuel text = some (value, tail)) :
    readFields? reading (fuel + 1)
        (first ++ ((Quoted.quote key).toList ++ (second ++ ':' :: (before ++ text)))) =
      match skipBlanks tail with
      | '\x7d' :: rest => some ([(key, value)], rest)
      | ',' :: rest => do
          let (fields, rest) ← readFields? reading fuel rest
          pure ((key, value) :: fields, rest)
      | _ => none := by
  have hvalue : readValue? reading fuel (before ++ text) = some (value, tail) := by
    rw [readValue?_append hbefore, hread]
  rw [readFields?, quote_append, skipBlanks_append_cons hfirst (by decide)]
  show (readString? _).bind _ = _
  rw [readString?_encode, String.ofList_toList, Option.bind_some]
  dsimp only
  rw [skipBlanks_append_cons hsecond (by decide)]
  show (readValue? reading fuel (before ++ text)).bind _ = _
  rw [hvalue]
  rfl

/-- The last field of an object. -/
theorem readFields?_last {key : String} {value : Json} {first second before : List Char}
    (hfirst : Blanks first) (hsecond : Blanks second) (hbefore : Blanks before)
    (hread : readValue? reading fuel text = some (value, tail))
    (h : skipBlanks tail = '\x7d' :: rest) :
    readFields? reading (fuel + 1)
        (first ++ ((Quoted.quote key).toList ++ (second ++ ':' :: (before ++ text)))) =
      some ([(key, value)], rest) := by
  rw [readFields?_value hfirst hsecond hbefore hread, h]
  rfl

/-- A field of an object in front of others. -/
theorem readFields?_cons {key : String} {value : Json} {first second before after : List Char}
    (hfirst : Blanks first) (hsecond : Blanks second) (hbefore : Blanks before)
    (hread : readValue? reading fuel text = some (value, tail)) (h : skipBlanks tail = ',' :: after)
    (hrest : readFields? reading fuel after = some (fields, rest)) :
    readFields? reading (fuel + 1)
        (first ++ ((Quoted.quote key).toList ++ (second ++ ':' :: (before ++ text)))) =
      some ((key, value) :: fields, rest) := by
  rw [readFields?_value hfirst hsecond hbefore hread, h]
  show (readFields? reading fuel after).bind _ = _
  rw [hrest]
  rfl

end opening

mutual

-- By recursion on the spelling. Every character of a text makes room for two calls of the reader.
theorem readValue?_of_spells : ∀ {json : Json} {text : List Char}, Spells reading json text →
    ∀ {fuel : Nat} {rest : List Char}, Ends rest → 2 * text.length ≤ fuel →
      readValue? reading fuel (text ++ rest) = some (json, rest)
  | _, _, h, 0, rest, _, hfuel => by
      obtain ⟨c, tail, rfl, -⟩ := h.head
      rw [List.length_cons] at hfuel
      omega
  | _, _, .null, fuel + 1, rest, _, _ => by
      rw [readValue?, show "null".toList = ['n', 'u', 'l', 'l'] from rfl, List.cons_append,
        skipBlanks_cons (by decide)]
      rfl
  | _, _, .bool true, fuel + 1, rest, _, _ => by
      rw [readValue?, show (boolText true).toList = ['t', 'r', 'u', 'e'] from rfl,
        List.cons_append, skipBlanks_cons (by decide)]
      rfl
  | _, _, .bool false, fuel + 1, rest, _, _ => by
      rw [readValue?, show (boolText false).toList = ['f', 'a', 'l', 's', 'e'] from rfl,
        List.cons_append, skipBlanks_cons (by decide)]
      rfl
  | _, _, .number n hnumber, fuel + 1, rest, hends, _ => by
      rw [List.append_assoc, readValue?_numeral hnumber hends]
  | _, _, .string value, fuel + 1, rest, _, _ => by
      rw [quote_append, readValue?_quote, String.ofList_toList]
  | _, _, .noItems hblanks, fuel + 1, rest, _, _ => by
      rw [List.cons_append, List.append_assoc]
      exact readValue?_noItems (skipBlanks_append_cons hblanks (by decide) rest)
  | _, _, .items h, fuel + 1, rest, _, hfuel => by
      obtain ⟨c, tail, hskip, hc⟩ := h.head rest
      rw [List.length_cons] at hfuel
      exact readValue?_items hskip hc (readItems?_of_spells h rest (by omega))
  | _, _, .noFields hblanks, fuel + 1, rest, _, _ => by
      rw [List.cons_append, List.append_assoc]
      exact readValue?_noFields (skipBlanks_append_cons hblanks (by decide) rest)
  | _, _, .fields h, fuel + 1, rest, _, hfuel => by
      obtain ⟨c, tail, hskip, hc⟩ := h.head rest
      rw [List.length_cons] at hfuel
      exact readValue?_fields hskip hc (readFields?_of_spells h rest (by omega))

theorem readItems?_of_spells : ∀ {items : List Json} {text : List Char},
    SpellsItems reading items text → ∀ {fuel : Nat} (rest : List Char), 2 * text.length ≤ fuel →
      readItems? reading fuel (text ++ rest) = some (items, rest)
  | _, _, h, 0, rest, hfuel => by
      cases h <;> simp at hfuel
  | _, _, .last hbefore h hafter, fuel + 1, rest, hfuel => by
      simp only [List.length_append, List.length_singleton] at hfuel
      simp only [List.append_assoc, List.singleton_append]
      rw [readItems?_append hbefore]
      exact readItems?_last
        (readValue?_of_spells h (ends_append_cons hafter (by decide) rest) (by omega))
        (skipBlanks_append_cons hafter (by decide) rest)
  | _, _, .cons hbefore h hafter hrest, fuel + 1, rest, hfuel => by
      simp only [List.length_append, List.length_cons] at hfuel
      simp only [List.append_assoc, List.cons_append]
      rw [readItems?_append hbefore]
      exact readItems?_cons
        (readValue?_of_spells h (ends_append_cons hafter (by decide) _) (by omega))
        (skipBlanks_append_cons hafter (by decide) _)
        (readItems?_of_spells hrest rest (by omega))

theorem readFields?_of_spells : ∀ {fields : List (String × Json)} {text : List Char},
    SpellsFields reading fields text → ∀ {fuel : Nat} (rest : List Char), 2 * text.length ≤ fuel →
      readFields? reading fuel (text ++ rest) = some (fields, rest)
  | _, _, h, 0, rest, hfuel => by
      cases h <;> simp at hfuel
  | [(key, _)], _, .last hfirst hsecond hbefore h hafter, fuel + 1, rest, hfuel => by
      have hkey := length_quote key
      simp only [List.length_append, List.length_cons] at hfuel
      simp only [List.append_assoc, List.cons_append, List.nil_append]
      exact readFields?_last hfirst hsecond hbefore
        (readValue?_of_spells h (ends_append_cons hafter (by decide) rest) (by omega))
        (skipBlanks_append_cons hafter (by decide) rest)
  | (key, _) :: _, _, .cons hfirst hsecond hbefore h hafter hrest, fuel + 1, rest, hfuel => by
      have hkey := length_quote key
      simp only [List.length_append, List.length_cons] at hfuel
      simp only [List.append_assoc, List.cons_append]
      exact readFields?_cons hfirst hsecond hbefore
        (readValue?_of_spells h (ends_append_cons hafter (by decide) _) (by omega))
        (skipBlanks_append_cons hafter (by decide) _)
        (readFields?_of_spells hrest rest (by omega))

end

end spells

/-- A text of a document is read as the document. -/
theorem readWith?_of_spells {json : Json} {text : List Char} (h : Spells reading json text) :
    readWith? reading (String.ofList text) = some json := by
  have hends : Ends [] := nofun
  have hread : readValue? reading (2 * text.length + 2) text = some (json, []) := by
    have hall := readValue?_of_spells h hends (by omega : 2 * text.length ≤ 2 * text.length + 2)
    rwa [List.append_nil] at hall
  rw [readWith?, String.toList_ofList]
  dsimp only
  rw [hread]
  rfl

mutual

/-- A document whose numbers have texts: integers of 64 bits and finite doubles. -/
def Writable : Json → Prop
  | int value => FitsDocument value
  | double value => value.isFinite = true
  | array items => WritableItems items
  | object fields => WritableFields fields
  | _ => True

/-- Every number of some items has a text. -/
def WritableItems : List Json → Prop
  | [] => True
  | item :: items => Writable item ∧ WritableItems items

/-- Every number of some fields has a text. -/
def WritableFields : List (String × Json) → Prop
  | [] => True
  | (_, value) :: fields => Writable value ∧ WritableFields fields

end

mutual

/-- A document with other doubles. -/
def mapDoubles (again : Double → Double) : Json → Json
  | double value => double (again value)
  | array items => array (mapDoublesItems again items)
  | object fields => object (mapDoublesFields again fields)
  | json => json

/-- Items with other doubles. -/
def mapDoublesItems (again : Double → Double) : List Json → List Json
  | [] => []
  | item :: items => mapDoubles again item :: mapDoublesItems again items

/-- Fields with other doubles. -/
def mapDoublesFields (again : Double → Double) : List (String × Json) → List (String × Json)
  | [] => []
  | (key, value) :: fields => (key, mapDoubles again value) :: mapDoublesFields again fields

end

mutual

theorem mapDoubles_id : ∀ json : Json, json.mapDoubles id = json
  | null | bool _ | int _ | double _ | string _ => rfl
  | array items => by rw [mapDoubles, mapDoublesItems_id items]
  | object fields => by rw [mapDoubles, mapDoublesFields_id fields]

theorem mapDoublesItems_id : ∀ items : List Json, mapDoublesItems id items = items
  | [] => rfl
  | item :: items => by rw [mapDoublesItems, mapDoubles_id item, mapDoublesItems_id items]

theorem mapDoublesFields_id : ∀ fields : List (String × Json), mapDoublesFields id fields = fields
  | [] => rfl
  | (_, value) :: fields => by
      rw [mapDoublesFields, mapDoubles_id value, mapDoublesFields_id fields]

end

theorem mapDoublesItems_eq {again : Double → Double} : ∀ items : List Json,
    mapDoublesItems again items = items.map (mapDoubles again)
  | [] => rfl
  | _ :: items => congrArg (_ :: ·) (mapDoublesItems_eq items)

theorem writableItems_iff : ∀ {items : List Json},
    WritableItems items ↔ ∀ item ∈ items, item.Writable
  | [] => by simp [WritableItems]
  | _ :: _ => by rw [WritableItems, List.forall_mem_cons, writableItems_iff]

theorem writableFields_iff : ∀ {fields : List (String × Json)},
    WritableFields fields ↔ ∀ field ∈ fields, field.2.Writable
  | [] => by simp [WritableFields]
  | (_, _) :: _ => by rw [WritableFields, List.forall_mem_cons, writableFields_iff]

theorem writable_strings (texts : List String) : (strings texts).Writable := by
  rw [strings, Writable, writableItems_iff, List.forall_mem_map]
  exact fun _ _ => trivial

theorem blanks_nil : Blanks [] := List.forall_mem_nil _

theorem blanks_space : Blanks [' '] := by
  rintro c (⟨⟩ | ⟨_, ⟨⟩⟩)
  decide

theorem blanks_lineBreak (depth : Nat) : Blanks (lineBreak depth).toList := by
  intro c hc
  rw [lineBreak, String.toList_ofList] at hc
  rcases List.mem_cons.mp hc with rfl | hc
  · decide
  · rw [List.eq_of_mem_replicate hc]
    decide

section written

variable {again : Double → Double}

theorem spells_int (hreads : reading.Rereads again) {i : Int} (h : FitsDocument i) :
    Spells reading (int i) (toString i).toList := by
  rw [toList_toString_int]
  exact .number _ (hreads.int h)

theorem spells_double (hreads : reading.Rereads again) {x : Double} (h : x.isFinite = true) :
    Spells reading (double (again x)) (doubleText x).toList := by
  obtain ⟨n, htext, hnumber⟩ := hreads.double h
  rw [htext]
  exact .number n hnumber

mutual

/-- A document is spelled without blanks. -/
theorem spells_compact (hreads : reading.Rereads again) : ∀ {json : Json}, Writable json →
    Spells reading (json.mapDoubles again) json.compact.toList
  | .null, _ => .null
  | .bool value, _ => .bool value
  | .int _, h => spells_int hreads h
  | .double _, h => spells_double hreads h
  | .string value, _ => .string value
  | .array [], _ => .noItems blanks_nil
  | .array (item :: items), h => by
      have hitems := Spells.items (spellsItems_compact hreads h (List.cons_ne_nil item items))
      rw [compact]
      simpa [mapDoubles] using hitems
  | .object [], _ => .noFields blanks_nil
  | .object (field :: fields), h => by
      have hfields := Spells.fields (spellsFields_compact hreads h (List.cons_ne_nil field fields))
      rw [compact]
      simpa [mapDoubles] using hfields

theorem spellsItems_compact (hreads : reading.Rereads again) : ∀ {items : List Json},
    WritableItems items → items ≠ [] →
    SpellsItems reading (mapDoublesItems again items)
      ((",".intercalate (compactItems items)).toList ++ [']'])
  | [item], h, _ => by
      have hlast := SpellsItems.last blanks_nil (spells_compact hreads h.1) blanks_nil
      simpa [compactItems, mapDoublesItems] using hlast
  | item :: next :: items, h, _ => by
      have hcons := SpellsItems.cons blanks_nil (spells_compact hreads h.1) blanks_nil
        (spellsItems_compact hreads h.2 (List.cons_ne_nil next items))
      simpa [compactItems, mapDoublesItems] using hcons

theorem spellsFields_compact (hreads : reading.Rereads again) :
    ∀ {fields : List (String × Json)}, WritableFields fields → fields ≠ [] →
    SpellsFields reading (mapDoublesFields again fields)
      ((",".intercalate (compactFields fields)).toList ++ ['\x7d'])
  | [(key, value)], h, _ => by
      have hlast : SpellsFields reading [(key, value.mapDoubles again)] _ :=
        .last blanks_nil blanks_nil blanks_nil (spells_compact hreads h.1) blanks_nil
      simpa [compactFields, mapDoublesFields] using hlast
  | (key, value) :: next :: fields, h, _ => by
      have hcons : SpellsFields reading
          ((key, value.mapDoubles again) :: mapDoublesFields again (next :: fields)) _ :=
        .cons blanks_nil blanks_nil blanks_nil (spells_compact hreads h.1) blanks_nil
          (spellsFields_compact hreads h.2 (List.cons_ne_nil next fields))
      simpa [compactFields, mapDoublesFields] using hcons

end

mutual

/-- A document is spelled with one item or field a line. -/
theorem spells_prettyAt (hreads : reading.Rereads again) : ∀ {json : Json} (depth : Nat),
    Writable json → Spells reading (json.mapDoubles again) (json.prettyAt depth).toList
  | .null, _, _ => .null
  | .bool value, _, _ => .bool value
  | .int _, _, h => spells_int hreads h
  | .double _, _, h => spells_double hreads h
  | .string value, _, _ => .string value
  | .array [], depth, _ => by
      have hclosed : (bracketed "[" "]" depth []).toList = ['[', ']'] := by simp [bracketed]
      rw [prettyAt, prettyItems, hclosed]
      exact .noItems blanks_nil
  | .array (item :: items), depth, h => by
      have hitems := Spells.items
        (spellsItems_pretty hreads depth (depth + 1) h (List.cons_ne_nil item items))
      rw [prettyAt, bracketed, if_neg (by rw [prettyItems]; exact Bool.false_ne_true)]
      simpa [mapDoubles] using hitems
  | .object [], depth, _ => by
      have hclosed : (bracketed "\x7b" "\x7d" depth []).toList = ['\x7b', '\x7d'] := by
        simp [bracketed]
      rw [prettyAt, prettyFields, hclosed]
      exact .noFields blanks_nil
  | .object (field :: fields), depth, h => by
      have hfields := Spells.fields
        (spellsFields_pretty hreads depth (depth + 1) h (List.cons_ne_nil field fields))
      obtain ⟨key, value⟩ := field
      rw [prettyAt, bracketed, if_neg (by rw [prettyFields]; exact Bool.false_ne_true)]
      simpa [mapDoubles] using hfields

theorem spellsItems_pretty (hreads : reading.Rereads again) : ∀ {items : List Json}
    (outer depth : Nat), WritableItems items → items ≠ [] →
    SpellsItems reading (mapDoublesItems again items) ((lineBreak depth).toList ++
      ((("," ++ lineBreak depth).intercalate (prettyItems depth items)).toList ++
        ((lineBreak outer).toList ++ [']'])))
  | [item], outer, depth, h, _ => by
      have hlast := SpellsItems.last (blanks_lineBreak depth) (spells_prettyAt hreads depth h.1)
        (blanks_lineBreak outer)
      simpa [prettyItems, mapDoublesItems] using hlast
  | item :: next :: items, outer, depth, h, _ => by
      have hcons := SpellsItems.cons (blanks_lineBreak depth) (spells_prettyAt hreads depth h.1)
        blanks_nil (spellsItems_pretty hreads outer depth h.2 (List.cons_ne_nil next items))
      simpa [prettyItems, mapDoublesItems] using hcons

theorem spellsFields_pretty (hreads : reading.Rereads again) :
    ∀ {fields : List (String × Json)} (outer depth : Nat),
    WritableFields fields → fields ≠ [] →
    SpellsFields reading (mapDoublesFields again fields) ((lineBreak depth).toList ++
      ((("," ++ lineBreak depth).intercalate (prettyFields depth fields)).toList ++
        ((lineBreak outer).toList ++ ['\x7d'])))
  | [(key, value)], outer, depth, h, _ => by
      have hlast : SpellsFields reading [(key, value.mapDoubles again)] _ :=
        .last (blanks_lineBreak depth) blanks_nil blanks_space (spells_prettyAt hreads depth h.1)
          (blanks_lineBreak outer)
      simpa [prettyFields, mapDoublesFields] using hlast
  | (key, value) :: next :: fields, outer, depth, h, _ => by
      have hcons : SpellsFields reading
          ((key, value.mapDoubles again) :: mapDoublesFields again (next :: fields)) _ :=
        .cons (blanks_lineBreak depth) blanks_nil blanks_space (spells_prettyAt hreads depth h.1)
          blanks_nil (spellsFields_pretty hreads outer depth h.2 (List.cons_ne_nil next fields))
      simpa [prettyFields, mapDoublesFields] using hcons

end

end written

end Json
end Pushdown
