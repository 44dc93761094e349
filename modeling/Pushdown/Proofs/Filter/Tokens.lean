import Pushdown.Json.Reader
import Pushdown.Proofs.Filter.Letters
import Mathlib.Data.List.Forall2
import Mathlib.Data.List.TakeWhile

/-!
# Tokens of query text

Query text is read by lexical rules of its own. A backtick opens a name, in which a backslash
takes the next character as it is and which the next backtick without one closes. A double quote
opens a literal, which is a JSON string. What else is not blank is a mark or a word.

Texts are put together from parts. A part spells some tokens if it is read as them in front of
all that no word goes on with, and closes if it is read so in front of anything.

## Results

* `QueryToken.reads_name`, `QueryToken.reads_literal`: quoted text is read back;
* `QueryToken.reads_append`: text without quotes in front of other text;
* `QueryToken.spells_scalar`: numbers and truth values are words.
-/

namespace Pushdown

/-- A token of query text. -/
inductive QueryToken where
  | name (text : String)
  | literal (text : String)
  | mark (c : Char)
  | word (text : String)
deriving DecidableEq

namespace QueryToken

/-- Characters that are tokens by themselves. -/
def isMark (c : Char) : Bool := ['(', ')', '[', ']', '\x7b', '\x7d', ',', ':'].contains c

/-- Characters that words are made of. -/
def isWordPart (c : Char) : Bool :=
  !(c.isWhitespace || c == Filter.nameQuote || c == '"' || isMark c)

/-- The characters of a name up to its closing quote, and what follows it. -/
def readName? : List Char → Option (List Char × List Char)
  | [] => none
  | '\\' :: c :: rest => (readName? rest).map fun (text, rest) => (c :: text, rest)
  | c :: rest =>
      if c = Filter.nameQuote then some ([], rest)
      else (readName? rest).map fun (text, rest) => (c :: text, rest)

/-- What stands at the start of a text, and what follows it: a blank is no token. -/
def next? (c : Char) (rest : List Char) : Option (List QueryToken × List Char) :=
  if c.isWhitespace then some ([], rest)
  else if c = Filter.nameQuote then
    (readName? rest).map fun (text, rest) => ([name (String.ofList text)], rest)
  else if c = '"' then (Json.readString? rest).map fun (text, rest) => ([literal text], rest)
  else if isMark c then some ([mark c], rest)
  else
    some ([word (String.ofList (c :: rest.takeWhile isWordPart))], rest.dropWhile isWordPart)

/-- The tokens of a text, if all of its quotes are closed. The fuel bounds the number of
characters. -/
def readAll : Nat → List Char → Option (List QueryToken)
  | _, [] => some []
  | 0, _ :: _ => none
  | fuel + 1, c :: rest =>
      match next? c rest with
      | none => none
      | some (first, rest) => (readAll fuel rest).map (first ++ ·)

/-- The tokens of a query text. -/
def ofText (text : String) : Option (List QueryToken) := readAll text.length text.toList

/-- A text is read as some tokens. -/
def Reads (text : List Char) (tokens : List QueryToken) : Prop :=
  readAll text.length text = some tokens

variable {c : Char} {text rest : List Char} {first tokens more : List QueryToken}

theorem readAll_mono : ∀ {n m : Nat} {text : List Char} {tokens : List QueryToken},
    readAll n text = some tokens → n ≤ m → readAll m text = some tokens
  | _, _, [], _, h, _ => by
      rw [readAll] at h ⊢
      exact h
  | 0, _, _ :: _, _, h, _ => by cases h
  | n + 1, 0, _ :: _, _, _, hle => by omega
  | n + 1, m + 1, c :: text, tokens, h, hle => by
      rw [readAll] at h ⊢
      split at h
      · cases h
      · next first rest hnext =>
        obtain ⟨others, hothers, rfl⟩ := Option.map_eq_some_iff.mp h
        rw [readAll_mono hothers (by omega)]
        rfl

/-- Reading goes on behind what stands at the start. -/
theorem reads_next (hnext : next? c text = some (first, rest)) (hlength : rest.length ≤ text.length)
    (h : Reads rest tokens) : Reads (c :: text) (first ++ tokens) := by
  rw [Reads, List.length_cons, readAll, hnext]
  dsimp only
  rw [readAll_mono h hlength]
  rfl

theorem next?_blank (h : c.isWhitespace = true) : next? c rest = some ([], rest) := if_pos h

theorem next?_mark (h : isMark c = true) : next? c rest = some ([mark c], rest) := by
  have hother : c.isWhitespace = false ∧ c ≠ Filter.nameQuote ∧ c ≠ '"' := by
    rw [isMark, List.contains_iff_mem] at h
    exact (by decide : ∀ c ∈ ['(', ')', '[', ']', '\x7b', '\x7d', ',', ':'],
      c.isWhitespace = false ∧ c ≠ Filter.nameQuote ∧ c ≠ '"') c h
  rw [next?, if_neg (by simp [hother.1]), if_neg hother.2.1, if_neg hother.2.2, if_pos h]

theorem next?_word (h : isWordPart c = true) :
    next? c rest = some
      ([word (String.ofList (c :: rest.takeWhile isWordPart))], rest.dropWhile isWordPart) := by
  simp only [isWordPart, Bool.not_eq_true', Bool.or_eq_false_iff, beq_eq_false_iff_ne] at h
  obtain ⟨⟨⟨hblank, hname⟩, hliteral⟩, hmark⟩ := h
  rw [next?, if_neg (by simp [hblank]), if_neg hname, if_neg hliteral, if_neg (by simp [hmark])]

/-- A text that no word before it goes on with. -/
def Apart (text : List Char) : Prop := ∀ c ∈ text.head?, isWordPart c = false

theorem reads_word (hall : ∀ d ∈ c :: text, isWordPart d = true) (hrest : Apart rest)
    (h : Reads rest tokens) :
    Reads (c :: text ++ rest) (word (String.ofList (c :: text)) :: tokens) := by
  rw [List.forall_mem_cons] at hall
  have hnext : next? c (text ++ rest) = some ([word (String.ofList (c :: text))], rest) := by
    obtain ⟨htake, hdrop⟩ := Text.span_append hall.2 hrest
    rw [next?_word hall.1, htake, hdrop]
  exact reads_next hnext (by rw [List.length_append]; omega) h

/-- A name is read up to the quote that closes it. -/
theorem readName?_escapeName (rest : List Char) : ∀ text : List Char,
    readName? (Filter.escapeName text ++ Filter.nameQuote :: rest) = some (text, rest)
  | [] => by
      rw [Filter.escapeName, List.nil_append, readName?, if_pos rfl]
      intro _ _ h
      cases h
  | c :: text => by
      rw [Filter.escapeName]
      split
      · rw [List.cons_append, List.cons_append, readName?, readName?_escapeName rest text]
        rfl
      · next hplain =>
        rw [not_or] at hplain
        rw [List.cons_append, readName?, if_neg hplain.2, readName?_escapeName rest text]
        · rfl
        · intro _ _ h
          exact absurd h hplain.1

theorem reads_name (text : List Char) (h : Reads rest tokens) :
    Reads (Filter.nameQuote :: (Filter.escapeName text ++ Filter.nameQuote :: rest))
      (name (String.ofList text) :: tokens) := by
  have hnext : next? Filter.nameQuote (Filter.escapeName text ++ Filter.nameQuote :: rest) =
      some ([name (String.ofList text)], rest) := by
    rw [next?, if_neg (by decide), if_pos rfl, readName?_escapeName]
    rfl
  exact reads_next hnext (by simp only [List.length_append, List.length_cons]; omega) h

end QueryToken

namespace Quoted

theorem hexValue?_hexDigit : ∀ n < 16, hexValue? (hexDigit n) = some n := by decide

/-- The code of a control character. -/
theorem escapeCode?_control {c : Char} (h : c.toNat < 0x20) (rest : List Char) :
    escapeCode? ('0' :: '0' :: hexDigit (c.toNat / 16) :: hexDigit (c.toNat % 16) :: rest) =
      some (c, rest) := by
  have hcode : hexFour? ('0' :: '0' :: hexDigit (c.toNat / 16) :: hexDigit (c.toNat % 16) :: rest) =
      some (c.toNat, rest) := by
    have hzero : hexValue? '0' = some 0 := rfl
    simp only [hexFour?, hzero, hexValue?_hexDigit (c.toNat / 16) (by omega),
      hexValue?_hexDigit (c.toNat % 16) (by omega), Option.bind_eq_bind, Option.bind_some,
      Option.pure_def, Option.some.injEq, Prod.mk.injEq, and_true]
    omega
  have hscalar : scalar? c.toNat = some c := by
    rw [scalar?, if_pos (.inl (by omega)), Char.ofNat_toNat]
  rw [escapeCode?, hcode]
  simp only [Option.bind_eq_bind, Option.bind_some]
  rw [if_neg (by omega), hscalar]
  rfl

/-- The escape of a character is read as the character. -/
theorem decodeOne?_literalEscape (c : Char) (rest : List Char) :
    decodeOne? (literalEscape c ++ rest) = some (c, rest) := by
  unfold literalEscape escape?
  split
  all_goals try rfl
  next hquote hslash _ _ _ _ _ =>
    split
    · next hcontrol => exact escapeCode?_control hcontrol rest
    · next hcontrol =>
      rw [Option.getD_none, List.cons_append, List.nil_append, decodeOne?,
        if_neg (by rw [not_or]; exact ⟨hcontrol, hslash⟩)]
      · exact hquote
      · intro _ h
        exact absurd h hslash
      · intro _ _ h
        exact absurd h hslash

theorem decode?_succ {n : Nat} {c : Char} {text rest : List Char}
    (h : decodeOne? text = some (c, rest)) :
    decode? (n + 1) text = (decode? n rest).map fun (text, rest) => (c :: text, rest) := by
  rw [decode?, h]
  · simp only [Option.bind_eq_bind, Option.bind_some, Option.pure_def]
    cases decode? n rest <;> rfl
  · rintro _ rfl
    cases h

/-- A literal is read up to the quote that closes it. -/
theorem decode?_encode (rest : List Char) : ∀ {n : Nat} {text : List Char}, text.length < n →
    decode? n (encode text ++ '"' :: rest) = some (text, rest)
  | 0, _, h => by omega
  | n + 1, [], _ => rfl
  | n + 1, c :: text, h => by
      have hencode : encode (c :: text) ++ '"' :: rest =
          literalEscape c ++ (encode text ++ '"' :: rest) := by
        rw [encode_eq_flatMap, encode_eq_flatMap, List.flatMap_cons, List.append_assoc]
      rw [hencode, decode?_succ (decodeOne?_literalEscape c _),
        decode?_encode rest (Nat.lt_of_succ_lt_succ h)]
      rfl

theorem length_le_encode : ∀ text : List Char, text.length ≤ (encode text).length
  | [] => Nat.le_refl 0
  | c :: text => by
      have ih := length_le_encode text
      have hescape : 1 ≤ (literalEscape c).length := by
        refine List.length_pos_iff.mpr fun hnil => ?_
        have hread := decodeOne?_literalEscape c []
        rw [hnil] at hread
        cases hread
      rw [encode_eq_flatMap] at ih ⊢
      rw [List.flatMap_cons, List.length_append, List.length_cons]
      omega

end Quoted

/-- A string is read up to the quote that closes it. -/
theorem Json.readString?_encode (text rest : List Char) :
    Json.readString? (Quoted.encode text ++ '"' :: rest) = some (String.ofList text, rest) := by
  have hlength := Quoted.length_le_encode text
  rw [Json.readString?, Quoted.decode?_encode rest (by rw [List.length_append]; omega)]
  rfl

namespace QueryToken

variable {text rest : List Char} {tokens : List QueryToken}

theorem reads_literal (text : List Char) (h : Reads rest tokens) :
    Reads ('"' :: (Quoted.encode text ++ '"' :: rest))
      (literal (String.ofList text) :: tokens) := by
  have hnext : next? '"' (Quoted.encode text ++ '"' :: rest) =
      some ([literal (String.ofList text)], rest) := by
    rw [next?, if_neg (by decide), if_neg (by decide), if_pos rfl, Json.readString?_encode]
    rfl
  exact reads_next hnext (by simp only [List.length_append, List.length_cons]; omega) h

/-- Where a text ends, so does what is left of it behind some words. -/
theorem getLast?_of_suffix {suffix : List Char} {d : Char} (h : suffix <:+ text)
    (hd : d ∈ suffix.getLast?) : d ∈ text.getLast? := by
  obtain ⟨before, rfl⟩ := h
  rw [Option.mem_def] at hd ⊢
  rw [List.getLast?_append, hd]
  rfl

/-- Behind the first word of a text nothing goes on with it, if a last word is not gone on
with. -/
theorem apart_dropWhile {c : Char} (hc : isWordPart c = true)
    (hend : Apart rest ∨ ∀ d ∈ (c :: text).getLast?, isWordPart d = false) :
    Apart (text.dropWhile isWordPart ++ rest) := by
  cases hdrop : text.dropWhile isWordPart with
  | cons d others =>
      have hd := List.head?_dropWhile_not isWordPart text
      rw [hdrop] at hd
      intro e he
      cases he
      exact hd
  | nil =>
      rcases hend with hrest | hlast
      · exact hrest
      · have hall : ∀ d ∈ c :: text, isWordPart d = true :=
          List.forall_mem_cons.mpr ⟨hc, List.dropWhile_eq_nil_iff.mp hdrop⟩
        obtain ⟨d, hd⟩ : ∃ d, (c :: text).getLast? = some d := ⟨_, List.getLast?_cons⟩
        have hword := hall d (List.mem_of_getLast? hd)
        rw [hlast d hd] at hword
        cases hword

-- By induction on the fuel with which the first text is read.
/-- A text without quotes is read in front of another one, if no word goes on from it. -/
theorem reads_append {rest : List Char} {more : List QueryToken} (hrest : Reads rest more) :
    ∀ {n : Nat} {text : List Char} {tokens : List QueryToken},
      Filter.nameQuote ∉ text → '"' ∉ text → readAll n text = some tokens →
      (Apart rest ∨ ∀ d ∈ text.getLast?, isWordPart d = false) →
      Reads (text ++ rest) (tokens ++ more)
  | _, [], _, _, _, h, _ => by
      rw [readAll] at h
      cases h
      exact hrest
  | 0, _ :: _, _, _, _, h, _ => by cases h
  | n + 1, c :: text, tokens, hname, hliteral, h, hend => by
      rw [readAll] at h
      split at h
      · cases h
      · next first others hnext =>
        obtain ⟨tokens, htokens, rfl⟩ := Option.map_eq_some_iff.mp h
        have ih : others <:+ text → Reads (others ++ rest) (tokens ++ more) := by
          intro hothers
          have hsuffix := hothers.trans (List.suffix_cons c text)
          exact reads_append hrest (fun hmem => hname (hsuffix.subset hmem))
            (fun hmem => hliteral (hsuffix.subset hmem)) htokens
            (hend.imp_right fun hlast d hd => hlast d (getLast?_of_suffix hsuffix hd))
        rw [List.mem_cons, not_or] at hname hliteral
        rw [List.append_assoc]
        by_cases hblank : c.isWhitespace = true
        · cases (next?_blank hblank).symm.trans hnext
          exact reads_next (next?_blank hblank) (Nat.le_refl _) (ih (List.suffix_refl _))
        · by_cases hmark : isMark c = true
          · cases (next?_mark hmark).symm.trans hnext
            exact reads_next (next?_mark hmark) (Nat.le_refl _) (ih (List.suffix_refl _))
          · have hc : isWordPart c = true := by
              simp [isWordPart, hblank, hmark, Ne.symm hname.1, Ne.symm hliteral.1]
            cases (next?_word hc).symm.trans hnext
            have hall : ∀ d ∈ c :: text.takeWhile isWordPart, isWordPart d = true :=
              List.forall_mem_cons.mpr ⟨hc, fun d hd => List.mem_takeWhile_imp hd⟩
            have hread := reads_word hall (apart_dropWhile hc hend) (ih (List.dropWhile_suffix _))
            rw [List.cons_append, ← List.append_assoc, List.takeWhile_append_dropWhile] at hread
            exact hread

/-- A text is read as some tokens in front of anything that no word goes on with. -/
def Spells (text : List Char) (tokens : List QueryToken) : Prop :=
  ∀ rest more, Apart rest → Reads rest more → Reads (text ++ rest) (tokens ++ more)

/-- A text is read as some tokens in front of anything. -/
def Closes (text : List Char) (tokens : List QueryToken) : Prop :=
  ∀ rest more, Reads rest more → Reads (text ++ rest) (tokens ++ more)

/-- No word before the text goes on with it, whatever follows. -/
def Opens (text : List Char) : Prop := ∃ c ∈ text.head?, isWordPart c = false

/-- A text without quotes that is read as some tokens. -/
structure Fixed (text : List Char) (tokens : List QueryToken) : Prop where
  unnamed : Filter.nameQuote ∉ text
  unquoted : '"' ∉ text
  read : Reads text tokens

/-- A text whose last word is over. -/
def Ended (text : List Char) : Prop := ∀ c ∈ text.getLast?, isWordPart c = false

instance (text : List Char) : Decidable (Opens text) :=
  Text.decidableExistsMemOption (isWordPart · = false) text.head?

instance (text : List Char) : Decidable (Ended text) :=
  Text.decidableForallMemOption (isWordPart · = false) text.getLast?

instance (text : List Char) (tokens : List QueryToken) : Decidable (Fixed text tokens) :=
  decidable_of_iff (Filter.nameQuote ∉ text ∧ '"' ∉ text ∧
      readAll text.length text = some tokens)
    ⟨fun ⟨hname, hliteral, hread⟩ => ⟨hname, hliteral, hread⟩,
      fun h => ⟨h.unnamed, h.unquoted, h.read⟩⟩

section Spells

variable {first second : List Char} {tokens more : List QueryToken}

theorem Closes.spells (h : Closes first tokens) : Spells first tokens :=
  fun rest more _ hrest => h rest more hrest

theorem Opens.append (h : Opens first) (rest : List Char) : Opens (first ++ rest) := by
  obtain ⟨c, hc, hword⟩ := h
  refine ⟨c, ?_, hword⟩
  rw [Option.mem_def] at hc ⊢
  rw [List.head?_append, hc]
  rfl

theorem Opens.apart (h : Opens second) (rest : List Char) : Apart (second ++ rest) := by
  obtain ⟨c, hc, hword⟩ := h.append rest
  intro d hd
  cases hc.symm.trans hd
  exact hword

theorem Closes.append_spells (hfirst : Closes first tokens) (hsecond : Spells second more) :
    Spells (first ++ second) (tokens ++ more) := by
  intro rest others hrest hothers
  rw [List.append_assoc, List.append_assoc]
  exact hfirst _ _ (hsecond rest others hrest hothers)

theorem Closes.append (hfirst : Closes first tokens) (hsecond : Closes second more) :
    Closes (first ++ second) (tokens ++ more) := by
  intro rest others hothers
  rw [List.append_assoc, List.append_assoc]
  exact hfirst _ _ (hsecond rest others hothers)

theorem Spells.append (hfirst : Spells first tokens) (hopens : Opens second)
    (hsecond : Spells second more) : Spells (first ++ second) (tokens ++ more) := by
  intro rest others hrest hothers
  rw [List.append_assoc, List.append_assoc]
  exact hfirst _ _ (hopens.apart rest) (hsecond rest others hrest hothers)

theorem Spells.append_closes (hfirst : Spells first tokens) (hopens : Opens second)
    (hsecond : Closes second more) : Closes (first ++ second) (tokens ++ more) := by
  intro rest others hothers
  rw [List.append_assoc, List.append_assoc]
  exact hfirst _ _ (hopens.apart rest) (hsecond rest others hothers)

theorem Fixed.spells (h : Fixed first tokens) : Spells first tokens :=
  fun _ _ hrest hmore => reads_append hmore h.unnamed h.unquoted h.read (.inl hrest)

theorem Fixed.closes (h : Fixed first tokens) (hend : Ended first) : Closes first tokens :=
  fun _ _ hmore => reads_append hmore h.unnamed h.unquoted h.read (.inr hend)

theorem spells_word (hne : first ≠ []) (hall : ∀ c ∈ first, isWordPart c = true) :
    Spells first [word (String.ofList first)] := by
  cases first with
  | nil => exact absurd rfl hne
  | cons c text => exact fun rest more hrest hmore => reads_word hall hrest hmore

end Spells

end QueryToken

theorem toDigits_ne_nil (n : Nat) : Nat.toDigits 10 n ≠ [] := by
  rw [← Nat.toList_repr]
  intro h
  exact Nat.repr_ne_empty (String.toList_inj.mp h)

namespace Layout

variable (layout : Layout) (d : Decimal)

theorem positionalText_ne_nil : layout.positionalText d ≠ [] := by
  have hdigits : d.digits ≠ [] := toDigits_ne_nil _
  rw [positionalText]
  split
  · simp [hdigits]
  · split
    · simp
    · simp

theorem scientificText_ne_nil : layout.scientificText d ≠ [] := by
  simp [scientificText]

theorem render_ne_nil {f : Format} (x : Binary f) : (layout.render x).toList ≠ [] := by
  have hbody : (if x.isInfinite then ['i', 'n', 'f'] else
      let d := x.shortest layout.tie
      if d.coefficient = 0 || layout.positional d.leadExponent then layout.positionalText d
      else layout.scientificText d) ≠ [] := by
    split
    · simp
    · dsimp only
      split
      · exact positionalText_ne_nil _ _
      · exact scientificText_ne_nil _ _
  rw [render]
  split
  · decide
  · rw [String.toList_ofList]
    dsimp only at hbody ⊢
    split
    · simp
    · exact hbody

end Layout

theorem toString_int_ne_nil (i : Int) : (toString i).toList ≠ [] := by
  rw [Int.toString_eq_repr, Int.repr_eq_if]
  split
  · rw [Nat.toList_repr]
    exact toDigits_ne_nil _
  · simp

theorem doubleText_ne_nil (value : Double) : (Json.doubleText value).toList ≠ [] := by
  rw [Json.doubleText]
  split
  · exact Layout.render_ne_nil _ _
  · decide

namespace QueryToken

/-- A scalar is a word. -/
theorem spells_scalar {text : String} (hne : text.toList ≠ []) (h : IsScalar text.toList) :
    Spells text.toList [word text] := by
  have hword : ∀ c ∈ text.toList, isWordPart c = true := fun c hc =>
    (by decide : ∀ c ∈ scalarLetters, isWordPart c = true) c (h c hc)
  have hspells := spells_word hne hword
  rw [String.ofList_toList] at hspells
  exact hspells

end QueryToken

end Pushdown
