import Pushdown.Proofs.Language.Patterns

/-!
# Tokens and the gaps between them

The tokens of a source stand one behind another, each the longest match at its place, and between
them are gaps: blanks, and comments that go on to the end of their line. A scan ends where its text
does, or where neither a gap nor a token goes on.

## Results

* `exists_gap`: the blanks and comments that are counted are the gap at the start of a text;
* `tokenized_scanFrom`: a scan splits its text into gaps and tokens;
* `tokens_cover_source`: the spans of the tokens of a source, and of what is between them.
-/

namespace Pushdown
namespace Language

/-! ## Gaps -/

/-- Blanks and comments before some text. A comment goes on to a line break or to the end. -/
inductive Gap : List Char → List Char → Prop
  | nil {after : List Char} : Gap [] after
  | blank {c : Char} {gap after : List Char} : isBlank c = true → Gap gap after →
      Gap (c :: gap) after
  | comment {body gap after : List Char} : (∀ d ∈ body, d ≠ '\n') →
      (∀ d ∈ (gap ++ after).head?, d = '\n') → Gap gap after →
      Gap ('/' :: '/' :: (body ++ gap)) after

/-- No blank and no comment starts a text. -/
def NoGap (text : List Char) : Prop := ∀ gap after, text = gap ++ after → Gap gap after → gap = []

theorem noGap_nil : NoGap [] := fun _ _ h _ => (List.append_eq_nil_iff.mp h.symm).1

theorem noGap_cons {c : Char} {rest : List Char} (hblank : isBlank c ≠ true)
    (hcomment : ¬ (c = '/' ∧ rest.head? = some '/')) : NoGap (c :: rest) := by
  intro gap after htext hgap
  cases hgap with
  | nil => rfl
  | blank h =>
      obtain ⟨rfl, -⟩ := List.cons.inj htext
      exact absurd h hblank
  | comment =>
      obtain ⟨rfl, rfl⟩ := List.cons.inj htext
      exact absurd ⟨rfl, rfl⟩ hcomment

/-- A comment is counted up to the end of its line. -/
theorem blankLength_comment {fuel : Nat} {body others : List Char} (hbody : ∀ d ∈ body, d ≠ '\n')
    (hothers : ∀ d ∈ others.head?, d = '\n') :
    blankLength (fuel + 1) ('/' :: '/' :: (body ++ others)) =
      blankLength fuel others + (body.length + 2) := by
  have hline : ∀ d ∈ '/' :: '/' :: body, (d != '\n') = true :=
    List.forall_mem_cons.mpr ⟨rfl, List.forall_mem_cons.mpr ⟨rfl, fun d hd =>
      bne_iff_ne.mpr (hbody d hd)⟩⟩
  have hend : ∀ d ∈ others.head?, (d != '\n') = false := fun d hd =>
    bne_eq_false_iff_eq.mpr (hothers d hd)
  have htake := (Text.span_append hline hend).1
  rw [List.cons_append, List.cons_append] at htake
  have hdrop : ('/' :: (body ++ others)).drop (body.length + 1) = others := List.drop_left
  rw [blankLength, if_neg (by decide), if_pos ⟨rfl, rfl⟩]
  dsimp only
  rw [htake]
  exact congrArg (blankLength fuel · + _) hdrop

/-- A text is the gap at its start, whose characters are counted, and a text that none starts. -/
theorem exists_gap {fuel : Nat} {text : List Char} (hfuel : text.length < fuel) :
    ∃ gap after, text = gap ++ after ∧ blankLength fuel text = gap.length ∧ Gap gap after ∧
      NoGap after := by
  induction fuel generalizing text with
  | zero => exact absurd hfuel (Nat.not_lt_zero _)
  | succ fuel ih =>
      cases text with
      | nil => exact ⟨[], [], rfl, rfl, .nil, noGap_nil⟩
      | cons c rest =>
          have hrest : rest.length < fuel := Nat.lt_of_succ_lt_succ hfuel
          by_cases hblank : isBlank c = true
          · obtain ⟨gap, after, rfl, hlength, hgap, hafter⟩ := ih hrest
            refine ⟨c :: gap, after, rfl, ?_, .blank hblank hgap, hafter⟩
            rw [blankLength, if_pos hblank, hlength, List.length_cons]
          by_cases hcomment : c = '/' ∧ rest.head? = some '/'
          · obtain ⟨rfl, hhead⟩ := hcomment
            obtain ⟨line, rfl⟩ := List.head?_eq_some_iff.mp hhead
            obtain ⟨body, others, rfl, hbody, hothers⟩ := Text.exists_span (· != '\n') line
            replace hbody : ∀ d ∈ body, d ≠ '\n' := fun d hd => bne_iff_ne.mp (hbody d hd)
            replace hothers : ∀ d ∈ others.head?, d = '\n' := fun d hd =>
              bne_eq_false_iff_eq.mp (hothers d hd)
            have hlength : others.length < fuel := by
              rw [List.length_cons, List.length_append] at hrest
              omega
            obtain ⟨gap, after, rfl, hgapLength, hgap, hafter⟩ := ih hlength
            refine ⟨'/' :: '/' :: (body ++ gap), after, by simp, ?_, .comment hbody hothers hgap,
              hafter⟩
            rw [blankLength_comment hbody hothers, hgapLength]
            simp only [List.length_cons, List.length_append]
            omega
          · refine ⟨[], c :: rest, rfl, ?_, .nil, noGap_cons hblank hcomment⟩
            rw [blankLength, if_neg hblank, if_neg hcomment, List.length_nil]

/-! ## Spans -/

/-- The span of some characters behind others. -/
def spanOf (before taken : List Char) : Span := ⟨byteLength before, byteLength (before ++ taken)⟩

theorem spanOf_nonempty (before : List Char) {taken : List Char} (h : taken ≠ []) :
    (spanOf before taken).start < (spanOf before taken).stop := by
  simp only [spanOf, byteLength_append]
  exact Nat.lt_add_of_pos_right (byteLength_pos h)

/-- Some characters stand in a source at a span, with others behind them. -/
def StandsAt (source : List Char) (span : Span) (taken after : List Char) : Prop :=
  ∃ before, source = before ++ (taken ++ after) ∧ span = spanOf before taken

/-! ## Texts as gaps and tokens -/

/-- What stands in a source behind some characters is gaps and tokens, up to its end or to invalid
input. -/
inductive Tokenized (source : List Char) :
    List Char → List SpannedToken → Option InvalidInput → Prop
  | done {before gap : List Char} : source = before ++ gap → Gap gap [] →
      Tokenized source before [] none
  | stuck {before gap taken after : List Char} : source = before ++ (gap ++ (taken ++ after)) →
      Gap gap (taken ++ after) → taken ≠ [] → NoGap (taken ++ after) →
      Unreadable (taken ++ after) →
      Tokenized source before [] (some ⟨String.ofList taken, spanOf (before ++ gap) taken⟩)
  | token {before gap taken after : List Char} {t : Token} {tokens : List SpannedToken}
      {failure : Option InvalidInput} : source = before ++ (gap ++ (taken ++ after)) →
      Gap gap (taken ++ after) → IsLongest taken (taken ++ after) (some t) →
      Tokenized source (before ++ gap ++ taken) tokens failure →
      Tokenized source before (⟨t, spanOf (before ++ gap) taken⟩ :: tokens) failure

/-- A scan splits its text into gaps and tokens. -/
theorem tokenized_scanFrom {fuel : Nat} {source before text : List Char}
    (hsource : source = before ++ text) (hfuel : text.length < fuel) :
    Tokenized source before (scanFrom fuel (byteLength before) text).1
      (scanFrom fuel (byteLength before) text).2 := by
  induction fuel generalizing before text with
  | zero => exact absurd hfuel (Nat.not_lt_zero _)
  | succ fuel ih =>
      obtain ⟨gap, behind, htext, hblanks, hgap, hbehind⟩ :=
        exists_gap (Nat.lt_succ_self text.length)
      rw [htext] at hsource
      rw [scanFrom, hblanks, htext, List.take_left, List.drop_left, ← byteLength_append]
      cases behind with
      | nil =>
          rw [List.append_nil] at hsource
          exact .done hsource hgap
      | cons c rest =>
          have hcorrect := Lexeme.correct_readFrom c rest
          dsimp only
          generalize Lexeme.readFrom c rest = lexeme at hcorrect ⊢
          rw [← byteLength_append]
          cases lexeme with
          | invalid taken =>
              obtain ⟨hunreadable, hne, after, hafter⟩ := hcorrect
              rw [← hafter] at hsource hgap hbehind hunreadable
              exact .stuck hsource hgap hne hbehind hunreadable
          | token t taken =>
              have hlongest : IsLongest taken (c :: rest) (some t) := hcorrect
              obtain ⟨after, hafter⟩ := hlongest.starts
              have hlength : after.length < fuel := by
                have htaken := List.length_pos_iff.mpr hlongest.ne_nil
                rw [htext, ← hafter, List.length_append, List.length_append] at hfuel
                omega
              rw [← hafter] at hsource hgap hlongest ⊢
              dsimp only [Lexeme.taken]
              rw [List.drop_left]
              refine .token hsource hgap hlongest (ih ?_ hlength)
              rw [hsource, List.append_assoc, List.append_assoc]

/-- A source is split into gaps and tokens. -/
theorem tokenized_ofSource (source : String) :
    Tokenized source.toList [] (Scanned.ofSource source).tokens
      (Scanned.ofSource source).failure := by
  have hsource : source.toList = [] ++ source.toList := rfl
  exact tokenized_scanFrom hsource (Nat.lt_succ_self _)

/-! ## Tokens and gaps at their spans -/

/-- The spans from an offset to the first token, between tokens, and from the last token to an
end. -/
def gapsFrom (stop : Nat) : Nat → List SpannedToken → List Span
  | offset, [] => [⟨offset, stop⟩]
  | offset, t :: tokens => ⟨offset, t.span.start⟩ :: gapsFrom stop t.span.stop tokens

/-- Where a scan ends: at its invalid input, or at the end of its source. -/
def scanEnd (source : List Char) (failure : Option InvalidInput) : Nat :=
  failure.elim (byteLength source) fun invalid => invalid.span.start

namespace Tokenized

variable {source before : List Char} {tokens : List SpannedToken} {failure : Option InvalidInput}

/-- Tokens stand at their spans, and each is the longest match there. -/
theorem tokens_standAt (h : Tokenized source before tokens failure) :
    ∀ t ∈ tokens, ∃ taken after, StandsAt source t.span taken after ∧
      IsLongest taken (taken ++ after) (some t.token) := by
  induction h with
  | done | stuck => exact List.forall_mem_nil _
  | @token before gap taken after t tokens failure hsource _ hlongest _ ih =>
      refine List.forall_mem_cons.mpr ⟨⟨taken, after, ⟨before ++ gap, ?_, rfl⟩, hlongest⟩, ih⟩
      rw [hsource, List.append_assoc]

/-- Tokens stand behind the characters before them, one behind another. -/
theorem ordered (h : Tokenized source before tokens failure) :
    (∀ t ∈ tokens, byteLength before ≤ t.span.start ∧ t.span.start < t.span.stop) ∧
      tokens.Pairwise fun a b => a.span.start < b.span.start ∧ a.span.stop ≤ b.span.start := by
  induction h with
  | done | stuck => exact ⟨List.forall_mem_nil _, .nil⟩
  | @token before gap taken after t tokens failure _ _ hlongest _ ih =>
      obtain ⟨hspans, hordered⟩ := ih
      have hspan := spanOf_nonempty (before ++ gap) hlongest.ne_nil
      have hbefore : byteLength before ≤ byteLength (before ++ gap) := by
        rw [byteLength_append]
        exact Nat.le_add_right _ _
      have hbehind : ∀ u ∈ tokens, (spanOf (before ++ gap) taken).stop ≤ u.span.start :=
        fun u hu => (hspans u hu).1
      have hstart : ∀ u ∈ tokens, (spanOf (before ++ gap) taken).start < u.span.start :=
        fun u hu => Nat.lt_of_lt_of_le hspan (hbehind u hu)
      refine ⟨List.forall_mem_cons.mpr ⟨⟨hbefore, hspan⟩, fun u hu => ⟨?_, (hspans u hu).2⟩⟩,
        .cons (fun u hu => ⟨hstart u hu, hbehind u hu⟩) hordered⟩
      exact Nat.le_trans hbefore (Nat.le_of_lt (hstart u hu))

/-- Between the tokens of a text are gaps. -/
theorem gaps_standAt (h : Tokenized source before tokens failure) :
    ∀ span ∈ gapsFrom (scanEnd source failure) (byteLength before) tokens, ∃ gap after,
      StandsAt source span gap after ∧ Gap gap after := by
  induction h with
  | @done before gap hsource hgap =>
      refine List.forall_mem_singleton.mpr ⟨gap, [], ⟨before, ?_, ?_⟩, hgap⟩
      · rw [hsource, List.append_nil]
      · rw [spanOf, ← hsource]
        rfl
  | @stuck before gap taken after hsource hgap =>
      exact List.forall_mem_singleton.mpr ⟨gap, taken ++ after, ⟨before, hsource, rfl⟩, hgap⟩
  | @token before gap taken after t tokens failure hsource hgap _ _ ih =>
      exact List.forall_mem_cons.mpr
        ⟨⟨gap, taken ++ after, ⟨before, hsource, rfl⟩, hgap⟩, ih⟩

/-- Where a scan ends at invalid input, neither a gap nor a token goes on. -/
theorem failure_standsAt (h : Tokenized source before tokens failure) :
    ∀ invalid ∈ failure, invalid.span.start < invalid.span.stop ∧
      ∃ taken after, StandsAt source invalid.span taken after ∧
        invalid.text = String.ofList taken ∧ NoGap (taken ++ after) ∧
        Unreadable (taken ++ after) := by
  induction h with
  | done => exact fun _ h => by cases h
  | @stuck before gap taken after hsource _ hne hbehind hunreadable =>
      rintro _ ⟨⟩
      refine ⟨spanOf_nonempty _ hne, taken, after, ⟨before ++ gap, ?_, rfl⟩, rfl, hbehind,
        hunreadable⟩
      rw [hsource, List.append_assoc]
  | token _ _ _ _ ih => exact ih

end Tokenized

/-! ## Coverage -/

/-- The tokens of a scan cover its source up to where the scan ends. -/
structure Covers (source : List Char) (scanned : Scanned) : Prop where
  /-- Every token stands at its span, and is the longest match there. -/
  tokens : ∀ t ∈ scanned.tokens, ∃ taken after, StandsAt source t.span taken after ∧
    IsLongest taken (taken ++ after) (some t.token)
  nonempty : ∀ t ∈ scanned.tokens, t.span.start < t.span.stop
  ordered : scanned.tokens.Pairwise fun a b =>
    a.span.start < b.span.start ∧ a.span.stop ≤ b.span.start
  /-- Only blanks and comments stand before, between and behind tokens. -/
  gaps : ∀ span ∈ gapsFrom (scanEnd source scanned.failure) 0 scanned.tokens, ∃ gap after,
    StandsAt source span gap after ∧ Gap gap after
  /-- At invalid input neither a gap nor a token goes on. -/
  failure : ∀ invalid ∈ scanned.failure, invalid.span.start < invalid.span.stop ∧
    ∃ taken after, StandsAt source invalid.span taken after ∧
      invalid.text = String.ofList taken ∧ NoGap (taken ++ after) ∧ Unreadable (taken ++ after)

/-- The tokens of a source are the longest matches at their places, and only blanks and comments
stand between them. -/
theorem tokens_cover_source (source : String) :
    Covers source.toList (Scanned.ofSource source) := by
  have h := tokenized_ofSource source
  obtain ⟨hspans, hordered⟩ := h.ordered
  exact ⟨h.tokens_standAt, fun t ht => (hspans t ht).2, hordered, h.gaps_standAt,
    h.failure_standsAt⟩

end Language
end Pushdown
