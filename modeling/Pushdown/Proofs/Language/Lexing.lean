import Pushdown.Language.Token
import Pushdown.Proofs.Language.Offsets
import Pushdown.Proofs.Text.Splitting

/-!
# Writing and reading tokens

Every token is written as a text that is read back as it, where the text behind it does not
go on with it. What a name and a decimal form of a number are is stated with the characters
that the language knows.

## Results

* `ofSource_quoted`: every text has a literal, in quotes of either kind;
* `readsAs_text`: the text of a token, and tokens behind it;
* `Scanned.of_readsAs`: the tokens of a source.
-/

namespace Pushdown
namespace Language

/-! ## Texts of tokens -/

/-- The names of the language: words that are not constants. -/
structure IsName (name : String) : Prop where
  starts : name.toList.head?.any isWordStart = true
  parts : name.toList.all isWordPart = true
  other : name ≠ "true" ∧ name ≠ "false" ∧ name ≠ "null"

instance (name : String) : Decidable (IsName name) :=
  decidable_of_iff
    (name.toList.head?.any isWordStart = true ∧ name.toList.all isWordPart = true ∧
      name ≠ "true" ∧ name ≠ "false" ∧ name ≠ "null")
    ⟨fun h => ⟨h.1, h.2.1, h.2.2⟩, fun h => ⟨h.starts, h.parts, h.other⟩⟩

/-- The minus of a negative number. -/
def sign (negative : Bool) : List Char := if negative then ['-'] else []

/-- A plain decimal form of a number: digits, a point and digits, with or without a minus. -/
def IsDecimal (text : List Char) (value : Double) : Prop :=
  ∃ negative whole fraction, text = sign negative ++ (whole ++ '.' :: fraction) ∧
    whole ≠ [] ∧ fraction ≠ [] ∧ (∀ c ∈ whole ++ fraction, c.isDigit = true) ∧
    Binary.ofDecimal negative (readNat (whole ++ fraction)) (-fraction.length) = value

/-- A character of a string, after a backslash where it would end it or start an escape. -/
def escapeIn (quote : Quote) (c : Char) : List Char :=
  if c = '\\' ∨ c = quote.char then ['\\', c] else [c]

namespace Token

/-- The text of a token, with the texts of floats as given. -/
def text (decimal : Double → List Char) : Token → List Char
  | trueWord => "true".toList
  | falseWord => "false".toList
  | nullWord => "null".toList
  | ident name => name.toList
  | string quote value =>
      quote.char :: (value.toList.flatMap (escapeIn quote) ++ [quote.char])
  | int value => (toString value.toInt).toList
  | float value => decimal value
  | dot => ['.']
  | comma => [',']
  | colon => [':']
  | leftParen => ['(']
  | rightParen => [')']
  | leftBrace => ['\x7b']
  | rightBrace => ['\x7d']
  | leftBracket => ['[']
  | rightBracket => [']']

/-- Tokens that have a text: words are names, and floats have a decimal form. -/
def Writable (decimal : Double → List Char) : Token → Prop
  | ident name => IsName name
  | float value => IsDecimal (decimal value) value
  | _ => True

/-- Texts that do not go on with a token. -/
def Ends : Token → List Char → Prop
  | trueWord, after | falseWord, after | nullWord, after | ident _, after =>
      ∀ c ∈ after.head?, isWordPart c = false
  | int _, after => ∀ c ∈ after.head?, c.isDigit = false ∧ c ≠ '.'
  | float _, after => ∀ c ∈ after.head?, c.isDigit = false
  | _, _ => True

end Token

/-! ## Reading on -/

/-- A text is read as some tokens to its end, wherever it stands. -/
def ReadsAs (text : List Char) (tokens : List Token) : Prop :=
  ∀ fuel offset, text.length < fuel →
    (scanFrom fuel offset text).1.map SpannedToken.token = tokens ∧
      (scanFrom fuel offset text).2 = none

theorem readsAs_nil : ReadsAs [] []
  | 0, _, h => absurd h (Nat.not_lt_zero _)
  | _ + 1, _, _ => ⟨rfl, rfl⟩

/-- A text starts with a token, and neither with a blank nor with a comment. -/
def StartsWith (t : Token) (taken after : List Char) : Prop :=
  ∃ c rest, taken ++ after = c :: rest ∧ taken ≠ [] ∧ isBlank c = false ∧ c ≠ '/' ∧
    Lexeme.readFrom c rest = .token t taken

/-- A scan takes the token that a text starts with, and goes on behind it. -/
theorem StartsWith.scanFrom_append {t : Token} {taken after : List Char}
    (h : StartsWith t taken after) (fuel offset : Nat) :
    scanFrom (fuel + 1) offset (taken ++ after) =
      (⟨t, ⟨offset, offset + byteLength taken⟩⟩ ::
          (scanFrom fuel (offset + byteLength taken) after).1,
        (scanFrom fuel (offset + byteLength taken) after).2) := by
  obtain ⟨c, rest, htext, hne, hblank, hslash, hread⟩ := h
  have hdrop : (c :: rest).drop taken.length = after := by
    rw [← htext, List.drop_left]
  have hblanks : ∀ n, blankLength (n + 1) (c :: rest) = 0 := fun n => by
    simp [blankLength, hblank, hslash]
  rw [htext, scanFrom]
  simp only [hblanks, List.drop_zero, List.take_zero, hread, hdrop, byteLength, Nat.add_zero,
    Lexeme.taken]

theorem StartsWith.readsAs {t : Token} {taken after : List Char} {ts : List Token}
    (h : StartsWith t taken after) (hafter : ReadsAs after ts) :
    ReadsAs (taken ++ after) (t :: ts) := by
  rintro (_ | fuel) offset hfuel
  · exact absurd hfuel (Nat.not_lt_zero _)
  · have hlength : 0 < taken.length := by
      obtain ⟨-, -, -, hne, -⟩ := h
      exact List.length_pos_iff.mpr hne
    have hafterFuel : after.length < fuel := by
      rw [List.length_append] at hfuel
      omega
    obtain ⟨htokens, hfailure⟩ := hafter fuel (offset + byteLength taken) hafterFuel
    rw [h.scanFrom_append]
    exact ⟨congrArg (t :: ·) htokens, hfailure⟩

/-! ## Words -/

theorem isBlank_of_isWordStart {c : Char} (h : isWordStart c = true) :
    isBlank c = false ∧ c ≠ '/' := by
  have hother : ∀ d ∈ [' ', '\t', '\r', '\n', '/'], c ≠ d := by
    rintro d hd rfl
    exact absurd h ((by decide :
      ∀ d ∈ [' ', '\t', '\r', '\n', '/'], ¬ isWordStart d = true) c hd)
  simpa [isBlank, and_assoc] using hother

/-- A word that nothing goes on with. -/
theorem startsWith_word {word after : List Char} (hstarts : word.head?.any isWordStart = true)
    (hparts : word.all isWordPart = true) (hafter : ∀ c ∈ after.head?, isWordPart c = false) :
    StartsWith (Token.ofWord word) word after := by
  cases word with
  | nil => cases hstarts
  | cons c rest =>
      rw [List.all_cons, Bool.and_eq_true, List.all_eq_true] at hparts
      have hc : isWordStart c = true := hstarts
      obtain ⟨hblank, hslash⟩ := isBlank_of_isWordStart hc
      refine ⟨c, rest ++ after, rfl, List.cons_ne_nil c rest, hblank, hslash, ?_⟩
      rw [Lexeme.readFrom, if_pos hc, (Text.span_append hparts.2 hafter).1]

theorem IsName.ofWord {name : String} (h : IsName name) :
    Token.ofWord name.toList = .ident name := by
  obtain ⟨htrue, hfalse, hnull⟩ := h.other
  simp only [Token.ofWord, String.ofList_toList]
  rw [if_neg htrue, if_neg hfalse, if_neg hnull]

/-! ## Strings -/

theorem stringItems_escape {quote : Quote} (after value : List Char) :
    stringItems quote.char (value.flatMap (escapeIn quote) ++ quote.char :: after) =
      value.flatMap (escapeIn quote) := by
  induction value with
  | nil => cases quote <;> simp [stringItems, Quote.char]
  | cons c value ih =>
      rw [List.flatMap_cons, List.append_assoc, escapeIn]
      by_cases h : c = '\\' ∨ c = quote.char
      · have hline : c ≠ '\n' := by
          rintro rfl
          cases quote <;> revert h <;> decide
        rw [if_pos h, List.cons_append, List.singleton_append, stringItems, if_neg hline, ih]
        rfl
      · have hquote : ¬ (c = quote.char ∨ c = '\\') := fun hc => h hc.symm
        rw [if_neg h, List.singleton_append, stringItems, if_neg hquote, ih]
        · rfl
        · rintro _ _ rfl
          exact absurd (.inl rfl) h

theorem unescape_escape {quote : Quote} (value : List Char) :
    unescape (value.flatMap (escapeIn quote)) = value := by
  induction value with
  | nil => rfl
  | cons c value ih =>
      rw [List.flatMap_cons, escapeIn]
      by_cases h : c = '\\' ∨ c = quote.char
      · rw [if_pos h, List.cons_append, List.singleton_append]
        rcases h with rfl | rfl
        · rw [unescape, ih]
        · cases quote
          · exact congrArg ('"' :: ·) ih
          · exact congrArg ('\'' :: ·) ih
      · have hc : c ≠ '\\' := fun hc => h (.inl hc)
        rw [if_neg h, List.singleton_append, unescape, ih] <;> intros <;> contradiction

theorem startsWith_string {quote : Quote} (value : String) (after : List Char) :
    StartsWith (.string quote value)
      (quote.char :: (value.toList.flatMap (escapeIn quote) ++ [quote.char])) after := by
  have hread : Lexeme.readString quote
      (value.toList.flatMap (escapeIn quote) ++ quote.char :: after) =
        .token (.string quote value)
          (quote.char :: (value.toList.flatMap (escapeIn quote) ++ [quote.char])) := by
    simp only [Lexeme.readString, stringItems_escape, unescape_escape, List.drop_left,
      List.head?_cons, if_true, String.ofList_toList]
  refine ⟨quote.char, value.toList.flatMap (escapeIn quote) ++ quote.char :: after, by simp,
    List.cons_ne_nil _ _, ?_, ?_, ?_⟩
  · cases quote <;> rfl
  · cases quote <;> decide
  · cases quote <;> exact hread

/-- The literal of a text: the text in quotes, with a backslash before each backslash and each
quote of that kind. -/
def quoted (quote : Quote) (value : String) : String :=
  String.ofList (quote.char :: (value.toList.flatMap (escapeIn quote) ++ [quote.char]))

/-- The literal of a text is one token, which takes all of it and stands for the text. -/
theorem ofSource_quoted (quote : Quote) (value : String) :
    Scanned.ofSource (quoted quote value) =
      ⟨[⟨.string quote value, ⟨0, (quoted quote value).utf8ByteSize⟩⟩], none,
        (quoted quote value).utf8ByteSize⟩ := by
  have hstarts : StartsWith (.string quote value) _ [] := startsWith_string value []
  have hscan := hstarts.scanFrom_append
    (quote.char :: (value.toList.flatMap (escapeIn quote) ++ [quote.char])).length 0
  rw [List.append_nil, Nat.zero_add] at hscan
  simp only [Scanned.ofSource, quoted, String.toList_ofList, utf8ByteSize_ofList, hscan]
  rfl

/-! ## Numbers -/

theorem readFrom_digit {c : Char} (h : c.isDigit = true) (rest : List Char) :
    isBlank c = false ∧ c ≠ '/' ∧
      Lexeme.readFrom c rest = (Lexeme.readNumber? false (c :: rest)).getD (.invalid [c]) := by
  have hother : isBlank c = false ∧ c ≠ '/' ∧ isWordStart c = false ∧ c ≠ '"' ∧ c ≠ '\'' ∧
      c ≠ '-' :=
    Text.forall_isDigit (p := fun c => isBlank c = false ∧ c ≠ '/' ∧ isWordStart c = false ∧
      c ≠ '"' ∧ c ≠ '\'' ∧ c ≠ '-') (by decide) h
  obtain ⟨hblank, hslash, hword, hdouble, hsingle, hminus⟩ := hother
  refine ⟨hblank, hslash, ?_⟩
  rw [Lexeme.readFrom, if_neg (by simp [hword]), if_neg hdouble, if_neg hsingle, if_neg hminus,
    if_pos h]

/-- A number is read after its sign. -/
theorem startsWith_number {negative : Bool} {digits taken after : List Char} {t : Token}
    (hne : digits ≠ []) (hdigits : ∀ c ∈ digits, c.isDigit = true) {rest : List Char}
    (htaken : taken ++ after = sign negative ++ (digits ++ rest))
    (hread : Lexeme.readNumber? negative (digits ++ rest) = some (.token t taken))
    (htakenNe : taken ≠ []) :
    StartsWith t taken after := by
  cases negative with
  | true =>
      refine ⟨'-', digits ++ rest, htaken, htakenNe, rfl, by decide, ?_⟩
      change (Lexeme.readNumber? true (digits ++ rest)).getD _ = _
      rw [hread]
      rfl
  | false =>
      cases digits with
      | nil => exact absurd rfl hne
      | cons c digits =>
          obtain ⟨hblank, hslash, hfrom⟩ :=
            readFrom_digit (hdigits c List.mem_cons_self) (digits ++ rest)
          refine ⟨c, digits ++ rest, htaken, htakenNe, hblank, hslash, ?_⟩
          rw [hfrom, ← List.cons_append, hread]
          rfl

theorem readNat_toDigits (n : Nat) : readNat (Nat.toDigits 10 n) = n :=
  Nat.ofDigitChars_toDigits (by decide) (by decide)

theorem readNumber?_whole {negative : Bool} {whole after : List Char} (hne : whole ≠ [])
    (hwhole : ∀ c ∈ whole, c.isDigit = true)
    (hafter : ∀ c ∈ after.head?, c.isDigit = false ∧ c ≠ '.') :
    Lexeme.readNumber? negative (whole ++ after) =
      some (Lexeme.ofDigits negative whole (sign negative ++ whole)) := by
  obtain ⟨htake, hdrop⟩ := Text.span_append hwhole fun c hc => (hafter c hc).1
  rw [Lexeme.readNumber?, spanDigits, htake, hdrop]
  cases after with
  | nil => simp [hne, sign]
  | cons c after =>
      have hpoint : c ≠ '.' := (hafter c rfl).2
      simp [hne, hpoint, sign]

theorem readNumber?_fraction {negative : Bool} {whole fraction after : List Char}
    (hwholeNe : whole ≠ []) (hfractionNe : fraction ≠ [])
    (hwhole : ∀ c ∈ whole, c.isDigit = true) (hfraction : ∀ c ∈ fraction, c.isDigit = true)
    (hafter : ∀ c ∈ after.head?, c.isDigit = false) :
    Lexeme.readNumber? negative (whole ++ '.' :: (fraction ++ after)) =
      some (.token (.float (Binary.ofDecimal negative (readNat (whole ++ fraction))
        (-fraction.length))) (sign negative ++ (whole ++ '.' :: fraction))) := by
  have hpoint : ∀ c ∈ ('.' :: (fraction ++ after)).head?, c.isDigit = false := by
    rintro _ ⟨⟩
    decide
  obtain ⟨htake, hdrop⟩ := Text.span_append hwhole hpoint
  rw [Lexeme.readNumber?, spanDigits, htake, hdrop]
  simp [hwholeNe, hfractionNe, (Text.span_append hfraction hafter).1, sign]

/-- An integer is its size with its sign. -/
theorem signed_natAbs (i : Int) :
    (if decide (i < 0) = true then -(i.natAbs : Int) else i.natAbs) = i := by
  split <;> rename_i h <;> rw [decide_eq_true_eq] at h <;> omega

theorem toList_toString_int (i : Int) :
    (toString i).toList = sign (i < 0) ++ Nat.toDigits 10 i.natAbs := by
  rw [Int.toString_eq_repr, Int.repr_eq_if]
  split
  · next h =>
      have habs : i.toNat = i.natAbs := by omega
      have hsign : sign (i < 0) = [] := if_neg (by rw [decide_eq_true_eq]; omega)
      rw [Nat.toList_repr, habs, hsign, List.nil_append]
  · next h =>
      have habs : (-i).toNat = i.natAbs := by omega
      have hsign : sign (i < 0) = "-".toList := if_pos (by rw [decide_eq_true_eq]; omega)
      rw [String.toList_append, Nat.toList_repr, habs, hsign]

theorem startsWith_int (value : Int64) {after : List Char}
    (hafter : ∀ c ∈ after.head?, c.isDigit = false ∧ c ≠ '.') :
    StartsWith (.int value) (toString value.toInt).toList after := by
  have hne : Nat.toDigits 10 value.toInt.natAbs ≠ [] := Nat.toDigits_ne_nil
  have hdigits : ∀ c ∈ Nat.toDigits 10 value.toInt.natAbs, c.isDigit = true := fun _ h =>
    Nat.isDigit_of_mem_toDigits (by decide) (by decide) h
  rw [toList_toString_int]
  refine startsWith_number hne hdigits (List.append_assoc _ _ _) ?_ (by simp [hne])
  rw [readNumber?_whole hne hdigits hafter]
  simp only [Lexeme.ofDigits, readNat_toDigits, signed_natAbs, if_pos (fits64_toInt value),
    Int64.ofInt_toInt]

theorem startsWith_float {text after : List Char} {value : Double} (h : IsDecimal text value)
    (hafter : ∀ c ∈ after.head?, c.isDigit = false) : StartsWith (.float value) text after := by
  obtain ⟨negative, whole, fraction, rfl, hwhole, hfraction, hdigits, rfl⟩ := h
  rw [List.forall_mem_append] at hdigits
  have htaken : sign negative ++ (whole ++ '.' :: fraction) ++ after =
      sign negative ++ (whole ++ '.' :: (fraction ++ after)) := by simp
  exact startsWith_number hwhole hdigits.1 htaken
    (readNumber?_fraction hwhole hfraction hdigits.1 hdigits.2 hafter) (by simp)

/-! ## Tokens -/

/-- A token that has a text starts it, if what stands behind does not go on with it. -/
theorem startsWith_text {decimal : Double → List Char} {t : Token} {after : List Char}
    (ht : t.Writable decimal) (hends : t.Ends after) : StartsWith t (t.text decimal) after := by
  cases t with
  | trueWord =>
      have h : StartsWith (Token.ofWord "true".toList) "true".toList after :=
        startsWith_word (by decide) (by decide) hends
      exact h
  | falseWord =>
      have h : StartsWith (Token.ofWord "false".toList) "false".toList after :=
        startsWith_word (by decide) (by decide) hends
      exact h
  | nullWord =>
      have h : StartsWith (Token.ofWord "null".toList) "null".toList after :=
        startsWith_word (by decide) (by decide) hends
      exact h
  | ident name =>
      have h : StartsWith (Token.ofWord name.toList) name.toList after :=
        startsWith_word ht.starts ht.parts hends
      rwa [ht.ofWord] at h
  | string quote value => exact startsWith_string value after
  | int value => exact startsWith_int value hends
  | float value => exact startsWith_float ht hends
  | _ => exact ⟨_, after, rfl, List.cons_ne_nil _ _, by decide, by decide, rfl⟩

theorem readsAs_text {decimal : Double → List Char} {t : Token} {after : List Char}
    {ts : List Token} (ht : t.Writable decimal) (hends : t.Ends after)
    (hafter : ReadsAs after ts) : ReadsAs (t.text decimal ++ after) (t :: ts) :=
  (startsWith_text ht hends).readsAs hafter

theorem Scanned.of_readsAs {text : List Char} {ts : List Token} (h : ReadsAs text ts) :
    (ofSource (String.ofList text)).failure = none ∧
      (ofSource (String.ofList text)).tokens.map SpannedToken.token = ts := by
  obtain ⟨htokens, hfailure⟩ := h (text.length + 1) 0 (Nat.lt_succ_self _)
  simp only [ofSource, String.toList_ofList]
  exact ⟨hfailure, htokens⟩

end Language
end Pushdown
