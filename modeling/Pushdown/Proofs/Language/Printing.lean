import Pushdown.Proofs.Language.Completeness
import Pushdown.Proofs.Language.Lexing

/-!
# Printing traversals

A tree is printed as the tokens of a phrase that derives it, each as its text and with
nothing between them. Where words are names and floats have a decimal form, the text is read
back as these tokens, so parsing it gives the tree back.

## Results

* `Bare.Traversal.derives_tokens`: the tokens of a tree derive it;
* `Bare.Traversal.written`: their text is read back as them;
* `parse_follows_grammar`: what `parse` accepts, and that it reads what was printed.
-/

namespace Pushdown
namespace Language

/-- Items with commas between them. -/
def commas : List (List Token) → List Token
  | [] => []
  | ts :: rest => ts ++ rest.flatMap (Token.comma :: ·)

/-- A name and what stands in parentheses behind it. -/
def callTokens (name : String) (inner : List Token) : List Token :=
  .ident name :: .leftParen :: (inner ++ [.rightParen])

namespace Bare

/-! ## The tokens of a tree -/

mutual

/-- The tokens of a literal. -/
def Literal.tokens : Literal → List Token
  | .null => [.nullWord]
  | .bool true => [.trueWord]
  | .bool false => [.falseWord]
  | .int value => [.int value]
  | .float value => [.float value]
  | .string value => [.string .double value]
  | .list items => .leftBracket :: (commas (Literal.itemTokens items) ++ [.rightBracket])
  | .map entries => .leftBrace :: (commas (Literal.entryTokens entries) ++ [.rightBrace])

/-- The tokens of each of some literals. -/
def Literal.itemTokens : List Literal → List (List Token)
  | [] => []
  | item :: items => Literal.tokens item :: Literal.itemTokens items

/-- The tokens of each of some map entries. -/
def Literal.entryTokens : List (String × Literal) → List (List Token)
  | [] => []
  | (key, value) :: entries =>
      (.string .double key :: .colon :: Literal.tokens value) :: Literal.entryTokens entries

end

/-- The tokens of a predicate. -/
def Predicate.tokens : Predicate → List Token
  | .call name arguments => callTokens name (commas (arguments.map Literal.tokens))
  | .and left right => left.tokens ++ .dot :: callTokens "and" right.tokens
  | .or left right => left.tokens ++ .dot :: callTokens "or" right.tokens

/-- The tokens of an argument. -/
def Argument.tokens : Argument → List Token
  | .literal l => l.tokens
  | .predicate p => p.tokens

/-- The tokens of a call. -/
def Call.tokens (call : Call) : List Token :=
  callTokens call.name (commas (call.arguments.map Argument.tokens))

/-- The tokens of a traversal. -/
def Traversal.tokens (tree : Traversal) : List Token :=
  .ident tree.source :: .dot ::
    (tree.start.tokens ++ tree.steps.flatMap fun call => .dot :: call.tokens)

end Bare

/-! ## Trees are derived by their tokens -/

section Derivation

variable {α : Type} {item : List Token → α → Prop} {tokens : α → List Token}

theorem Star.flatMap {xs : List α} (h : ∀ x ∈ xs, item (tokens x) x) :
    Star item (xs.flatMap tokens) xs := by
  induction xs with
  | nil => exact .nil
  | cons x xs ih =>
      rw [List.forall_mem_cons] at h
      exact .cons h.1 (ih h.2)

theorem Series.commas {xs : List α} (h : ∀ x ∈ xs, item (tokens x) x) :
    Series item (commas (xs.map tokens)) xs := by
  cases xs with
  | nil => exact .nil
  | cons x xs =>
      rw [List.forall_mem_cons] at h
      refine .cons h.1 ?_
      rw [List.flatMap_map]
      exact Star.flatMap fun y hy => .intro (h.2 y hy)

end Derivation

namespace Bare

/-- The tokens of a map entry. -/
def Literal.entryToken (entry : String × Literal) : List Token :=
  .string .double entry.1 :: .colon :: entry.2.tokens

theorem Literal.itemTokens_eq (items : List Literal) :
    Literal.itemTokens items = items.map Literal.tokens := by
  induction items with
  | nil => rfl
  | cons item items ih => rw [Literal.itemTokens, ih, List.map_cons]

theorem Literal.entryTokens_eq (entries : List (String × Literal)) :
    Literal.entryTokens entries = entries.map Literal.entryToken := by
  induction entries with
  | nil => rfl
  | cons entry entries ih => rw [Literal.entryTokens, ih, List.map_cons, Literal.entryToken]

mutual

theorem Literal.derives_tokens : ∀ l : Literal, Literal.Derives l.tokens l
  | .null => .null
  | .bool true => .true
  | .bool false => .false
  | .int value => .int value
  | .float value => .float value
  | .string value => .string .double value
  | .list items => by
      rw [Literal.tokens, Literal.itemTokens_eq]
      exact .list (Series.commas (Literal.derives_items items))
  | .map entries => by
      rw [Literal.tokens, Literal.entryTokens_eq]
      exact .map (Series.commas (Literal.derives_entries entries))

theorem Literal.derives_items :
    ∀ items : List Literal, ∀ item ∈ items, Literal.Derives item.tokens item
  | item :: items, x, hx => by
      rcases List.mem_cons.mp hx with heq | hx
      · exact heq ▸ Literal.derives_tokens item
      · exact Literal.derives_items items x hx

theorem Literal.derives_entries : ∀ entries : List (String × Literal), ∀ entry ∈ entries,
    Literal.EntryDerives (Literal.entryToken entry) entry
  | (key, value) :: entries, x, hx => by
      rcases List.mem_cons.mp hx with heq | hx
      · exact heq ▸ .intro (.string .double key) (Literal.derives_tokens value)
      · exact Literal.derives_entries entries x hx

end

theorem Predicate.derives_tokens (p : Predicate) : Predicate.Derives p.tokens p := by
  induction p with
  | call name arguments =>
      have hcall : Predicate.CallDerives (Predicate.call name arguments).tokens
          (.call name arguments) :=
        .intro (.plain name) (Series.commas fun l _ => l.derives_tokens)
      simpa using Predicate.Derives.intro hcall .nil
  | and left right ihleft ihright => exact ihleft.join (.intro .and ihright)
  | or left right ihleft ihright => exact ihleft.join (.intro .or ihright)

theorem Argument.derives_tokens : ∀ a : Argument, Argument.Derives a.tokens a
  | .literal l => .literal l.derives_tokens
  | .predicate p => .predicate p.derives_tokens

theorem Call.derives_tokens (call : Call) : Call.Derives call.tokens call :=
  .intro call.name (Series.commas fun a _ => a.derives_tokens)

theorem Traversal.derives_tokens (tree : Traversal) : Traversal.Derives tree.tokens tree :=
  .intro tree.source tree.start.derives_tokens
    (Star.flatMap fun call _ => .intro call.derives_tokens)

end Bare

/-! ## Texts of phrases -/

/-- The text of tokens, one behind the other. -/
def write (decimal : Double → List Char) (ts : List Token) : List Char :=
  ts.flatMap (Token.text decimal)

/-- Before the texts that end it, the text of tokens is read as them. -/
def Written (decimal : Double → List Char) (ends : List Char → Prop) (ts : List Token) : Prop :=
  ∀ after us, ends after → ReadsAs after us → ReadsAs (write decimal ts ++ after) (ts ++ us)

/-- Texts that go on with no literal. -/
def Closes (after : List Char) : Prop := ∀ c ∈ after.head?, isWordPart c = false ∧ c ≠ '.'

/-- Any text. -/
def AnyText (_ : List Char) : Prop := True

section Texts

variable {decimal : Double → List Char} {stops stops' : List Char → Prop} {t : Token}
  {ts us : List Token}

theorem Closes.ends {after : List Char} (h : Closes after) : t.Ends after := by
  have hdigit : ∀ c ∈ after.head?, c.isDigit = false := fun c hc => by
    have hpart := (h c hc).1
    simp only [isWordPart, Char.isAlphanum, Bool.or_eq_false_iff] at hpart
    exact hpart.1.2
  cases t with
  | trueWord | falseWord | nullWord | ident => exact fun c hc => (h c hc).1
  | int => exact fun c hc => ⟨hdigit c hc, (h c hc).2⟩
  | float => exact hdigit
  | _ => trivial

theorem written_nil : Written decimal stops [] := fun _ _ _ hafter => hafter

theorem written_single (ht : t.Writable decimal) : Written decimal t.Ends [t] :=
  fun after us hends hafter => by
    rw [write, List.flatMap_singleton]
    exact readsAs_text ht hends hafter

theorem Written.mono (h : Written decimal stops ts) (himp : ∀ after, stops' after → stops after) :
    Written decimal stops' ts := fun after us hstops hafter => h after us (himp after hstops) hafter

theorem Written.append (h : Written decimal stops ts) (h' : Written decimal stops' us)
    (hstops : ∀ after, stops' after → stops (write decimal us ++ after)) :
    Written decimal stops' (ts ++ us) := fun after more hafter hmore => by
  rw [write, List.flatMap_append, List.append_assoc, List.append_assoc]
  exact h _ _ (hstops after hafter) (h' after more hafter hmore)

theorem Written.free_append (h : Written decimal AnyText ts) (h' : Written decimal stops us) :
    Written decimal stops (ts ++ us) := h.append h' fun _ _ => trivial

theorem written_mark (ht : ∀ after, t.Ends after) (hwritable : t.Writable decimal) :
    Written decimal AnyText [t] := (written_single hwritable).mono fun after _ => ht after

/-- Behind a list of items stands what closes it. -/
theorem written_closed {closing : Token} (h : Written decimal Closes ts)
    (hclosing : Bare.Closing closing) : Written decimal AnyText (ts ++ [closing]) := by
  refine h.append ?_ ?_
  · rcases hclosing with rfl | rfl | rfl <;> exact written_mark (fun _ => trivial) trivial
  · rintro after -
    rcases hclosing with rfl | rfl | rfl <;> rintro _ ⟨⟩ <;> decide

theorem written_call {name : String} (hname : IsName name) (h : Written decimal Closes ts) :
    Written decimal AnyText (callTokens name ts) := by
  have hword : Written decimal (Token.ident name).Ends [.ident name] := written_single hname
  have hopening : Written decimal AnyText [.leftParen] := written_mark (fun _ => trivial) trivial
  refine hword.append (hopening.free_append (written_closed h (.inl rfl))) ?_
  rintro after - _ ⟨⟩
  decide

theorem closes_more (tss : List (List Token)) {after : List Char} (h : Closes after) :
    Closes (write decimal (tss.flatMap (Token.comma :: ·)) ++ after) := by
  cases tss with
  | nil => exact h
  | cons ts tss =>
      rintro _ ⟨⟩
      decide

theorem written_more {tss : List (List Token)} (h : ∀ ts ∈ tss, Written decimal Closes ts) :
    Written decimal Closes (tss.flatMap (Token.comma :: ·)) := by
  induction tss with
  | nil => exact written_nil
  | cons ts tss ih =>
      rw [List.forall_mem_cons] at h
      have hcomma : Written decimal AnyText [.comma] := written_mark (fun _ => trivial) trivial
      exact (hcomma.free_append h.1).append (ih h.2) fun _ => closes_more tss

theorem written_commas {tss : List (List Token)} (h : ∀ ts ∈ tss, Written decimal Closes ts) :
    Written decimal Closes (commas tss) := by
  cases tss with
  | nil => exact written_nil
  | cons ts tss =>
      rw [List.forall_mem_cons] at h
      exact h.1.append (written_more h.2) fun _ => closes_more tss

end Texts

/-! ## Trees are read back -/

/-- Tokens that all have a text. -/
def AllWritable (decimal : Double → List Char) (ts : List Token) : Prop :=
  ∀ t ∈ ts, t.Writable decimal

section Trees

variable {decimal : Double → List Char} {t : Token} {ts us : List Token}
  {tss : List (List Token)} {name : String}

theorem allWritable_iff :
    AllWritable decimal ts ↔
      (∀ name, .ident name ∈ ts → IsName name) ∧
        ∀ value, .float value ∈ ts → IsDecimal (decimal value) value := by
  constructor
  · exact fun h => ⟨fun name => h (.ident name), fun value => h (.float value)⟩
  · rintro ⟨hnames, hfloats⟩ t ht
    cases t with
    | ident name => exact hnames name ht
    | float value => exact hfloats value ht
    | _ => trivial

theorem allWritable_append_iff :
    AllWritable decimal (ts ++ us) ↔ AllWritable decimal ts ∧ AllWritable decimal us :=
  List.forall_mem_append

theorem allWritable_cons_iff :
    AllWritable decimal (t :: ts) ↔ t.Writable decimal ∧ AllWritable decimal ts :=
  List.forall_mem_cons

theorem allWritable_commas (h : AllWritable decimal (commas tss)) :
    ∀ ts ∈ tss, AllWritable decimal ts := by
  cases tss with
  | nil => exact fun _ h => absurd h List.not_mem_nil
  | cons ts tss =>
      rw [commas, allWritable_append_iff] at h
      refine List.forall_mem_cons.mpr ⟨h.1, fun us hus t ht => h.2 t ?_⟩
      exact List.mem_flatMap.mpr ⟨us, hus, List.mem_cons_of_mem _ ht⟩

theorem allWritable_callTokens (h : AllWritable decimal (callTokens name ts)) :
    IsName name ∧ AllWritable decimal ts := by
  rw [callTokens, allWritable_cons_iff, allWritable_cons_iff, allWritable_append_iff] at h
  exact ⟨h.1, h.2.2.1⟩

namespace Bare

mutual

theorem Literal.written : ∀ l : Literal, AllWritable decimal l.tokens →
    Written decimal Closes l.tokens
  | .null, h => (written_single (h _ List.mem_cons_self)).mono fun _ => Closes.ends
  | .bool true, h => (written_single (h _ List.mem_cons_self)).mono fun _ => Closes.ends
  | .bool false, h => (written_single (h _ List.mem_cons_self)).mono fun _ => Closes.ends
  | .int _, h => (written_single (h _ List.mem_cons_self)).mono fun _ => Closes.ends
  | .float _, h => (written_single (h _ List.mem_cons_self)).mono fun _ => Closes.ends
  | .string _, h => (written_single (h _ List.mem_cons_self)).mono fun _ => Closes.ends
  | .list items, h => by
      rw [Literal.tokens, allWritable_cons_iff, allWritable_append_iff] at h
      have hitems := written_commas (Literal.written_items items (allWritable_commas h.2.1))
      have hopening : Written decimal AnyText [.leftBracket] :=
        written_mark (fun _ => trivial) trivial
      exact (hopening.free_append (written_closed hitems (.inr (.inl rfl)))).mono
        fun _ _ => trivial
  | .map entries, h => by
      rw [Literal.tokens, allWritable_cons_iff, allWritable_append_iff] at h
      have hentries := written_commas
        (Literal.written_entries entries (allWritable_commas h.2.1))
      have hopening : Written decimal AnyText [.leftBrace] :=
        written_mark (fun _ => trivial) trivial
      exact (hopening.free_append (written_closed hentries (.inr (.inr rfl)))).mono
        fun _ _ => trivial

theorem Literal.written_items : ∀ items : List Literal,
    (∀ ts ∈ Literal.itemTokens items, AllWritable decimal ts) →
    ∀ ts ∈ Literal.itemTokens items, Written decimal Closes ts
  | [], _ => fun _ h => absurd h List.not_mem_nil
  | item :: items, h => by
      rw [Literal.itemTokens, List.forall_mem_cons] at h ⊢
      exact ⟨Literal.written item h.1, Literal.written_items items h.2⟩

theorem Literal.written_entries : ∀ entries : List (String × Literal),
    (∀ ts ∈ Literal.entryTokens entries, AllWritable decimal ts) →
    ∀ ts ∈ Literal.entryTokens entries, Written decimal Closes ts
  | [], _ => fun _ h => absurd h List.not_mem_nil
  | (key, value) :: entries, h => by
      rw [Literal.entryTokens, List.forall_mem_cons] at h ⊢
      rw [allWritable_cons_iff, allWritable_cons_iff] at h
      have hkey : Written decimal AnyText [.string .double key] :=
        written_mark (fun _ => trivial) trivial
      have hcolon : Written decimal AnyText [.colon] := written_mark (fun _ => trivial) trivial
      exact ⟨hkey.free_append (hcolon.free_append (Literal.written value h.1.2.2)),
        Literal.written_entries entries h.2⟩

end

/-- A predicate joined to what stands before it. -/
theorem Predicate.written_link {left right : List Token} {word : String}
    (hword : IsName word) (hleft : Written decimal AnyText left)
    (hright : Written decimal AnyText right) :
    Written decimal AnyText (left ++ .dot :: callTokens word right) := by
  have hdot : Written decimal AnyText [.dot] := written_mark (fun _ => trivial) trivial
  have hcall := written_call hword (hright.mono fun after (_ : Closes after) => trivial)
  exact hleft.free_append (hdot.free_append hcall)

theorem Predicate.written (p : Predicate) (h : AllWritable decimal p.tokens) :
    Written decimal AnyText p.tokens := by
  induction p with
  | call name arguments =>
      obtain ⟨hname, harguments⟩ := allWritable_callTokens h
      have hitems := List.forall_mem_map.mp (allWritable_commas harguments)
      exact written_call hname
        (written_commas (List.forall_mem_map.mpr fun l hl => l.written (hitems l hl)))
  | and left right ihleft ihright =>
      rw [Predicate.tokens, allWritable_append_iff, allWritable_cons_iff] at h
      obtain ⟨hword, hright⟩ := allWritable_callTokens h.2.2
      exact Predicate.written_link hword (ihleft h.1) (ihright hright)
  | or left right ihleft ihright =>
      rw [Predicate.tokens, allWritable_append_iff, allWritable_cons_iff] at h
      obtain ⟨hword, hright⟩ := allWritable_callTokens h.2.2
      exact Predicate.written_link hword (ihleft h.1) (ihright hright)

theorem Argument.written : ∀ a : Argument, AllWritable decimal a.tokens →
    Written decimal Closes a.tokens
  | .literal l, h => l.written h
  | .predicate p, h => (p.written h).mono fun _ _ => trivial

theorem Call.written (call : Call) (h : AllWritable decimal call.tokens) :
    Written decimal AnyText call.tokens := by
  obtain ⟨hname, harguments⟩ := allWritable_callTokens h
  have hitems := List.forall_mem_map.mp (allWritable_commas harguments)
  exact written_call hname
    (written_commas (List.forall_mem_map.mpr fun a ha => a.written (hitems a ha)))

theorem Call.written_chain (calls : List Call)
    (h : AllWritable decimal (calls.flatMap fun call => .dot :: call.tokens)) :
    Written decimal AnyText (calls.flatMap fun call => .dot :: call.tokens) := by
  induction calls with
  | nil => exact written_nil
  | cons call calls ih =>
      rw [List.flatMap_cons, allWritable_append_iff, allWritable_cons_iff] at h
      have hdot : Written decimal AnyText [.dot] := written_mark (fun _ => trivial) trivial
      exact (hdot.free_append (call.written h.1.2)).free_append (ih h.2)

theorem Traversal.written (tree : Traversal) (h : AllWritable decimal tree.tokens) :
    Written decimal AnyText tree.tokens := by
  rw [Traversal.tokens, allWritable_cons_iff, allWritable_cons_iff, allWritable_append_iff] at h
  obtain ⟨hsource, -, hstart, hsteps⟩ := h
  have hword : Written decimal (Token.ident tree.source).Ends [.ident tree.source] :=
    written_single hsource
  have hdot : Written decimal AnyText [.dot] := written_mark (fun _ => trivial) trivial
  have hcalls := (tree.start.written hstart).free_append (Call.written_chain tree.steps hsteps)
  refine hword.append (hdot.free_append hcalls) ?_
  rintro after - _ ⟨⟩
  decide

/-- A traversal printed, with the texts of floats as given. -/
def Traversal.text (decimal : Double → List Char) (tree : Traversal) : String :=
  String.ofList (write decimal tree.tokens)

theorem Traversal.scanned_text (tree : Traversal) (h : AllWritable decimal tree.tokens) :
    (Scanned.ofSource (tree.text decimal)).failure = none ∧
      (Scanned.ofSource (tree.text decimal)).kinds = tree.tokens := by
  have hreads := tree.written h [] [] trivial readsAs_nil
  rw [List.append_nil, List.append_nil] at hreads
  exact Scanned.of_readsAs hreads

end Bare

end Trees

/-! ## The parser and the grammar -/

/-- The parser accepts a source that has tokens if and only if they derive a tree, and what
it returns is the one tree that they derive, but for its spans. So a tree whose words are
names and whose floats have a decimal form comes back when it is printed and parsed. -/
theorem parse_follows_grammar :
    (∀ source, (Scanned.ofSource source).failure = none →
      ((∃ expr, parse source = .ok expr) ↔
        ∃ tree, Bare.Traversal.Derives (Scanned.ofSource source).kinds tree) ∧
      ∀ expr, parse source = .ok expr → ∀ tree,
        Bare.Traversal.Derives (Scanned.ofSource source).kinds tree ↔ tree = expr.bare) ∧
    ∀ (decimal : Double → List Char) (expr : TraversalExpr),
      (∀ name, .ident name ∈ expr.bare.tokens → IsName name) →
      (∀ value, .float value ∈ expr.bare.tokens → IsDecimal (decimal value) value) →
      ∃ again, parse (expr.bare.text decimal) = .ok again ∧ again.bare = expr.bare := by
  refine ⟨fun source hsource => ⟨⟨?_, ?_⟩, ?_⟩, fun decimal expr hnames hfloats => ?_⟩
  · rintro ⟨expr, hparse⟩
    exact ⟨expr.bare, Parser.traversal_sound hparse⟩
  · rintro ⟨tree, h⟩
    obtain ⟨expr, hparse, -⟩ := (Parser.traversal_eq_ok_iff hsource).mpr h
    exact ⟨expr, hparse⟩
  · intro expr hparse tree
    rw [← Parser.traversal_eq_ok_iff hsource]
    constructor
    · rintro ⟨other, hother, rfl⟩
      rw [Except.ok.inj (hparse.symm.trans hother)]
    · rintro rfl
      exact ⟨expr, hparse, rfl⟩
  · obtain ⟨hfailure, hkinds⟩ := expr.bare.scanned_text (allWritable_iff.mpr ⟨hnames, hfloats⟩)
    refine (Parser.traversal_eq_ok_iff hfailure).mpr ?_
    rw [hkinds]
    exact expr.bare.derives_tokens

/-- A traversal over people of some ages. -/
def ageSource : String := "g.V() // all\n  .has('age', P.gt(9.5).and(lt(20)))"

/-- The tree of `ageSource`. -/
def ageTree : Bare.Traversal :=
  ⟨"g", ⟨"V", []⟩, [⟨"has", [.literal (.string "age"),
    .predicate (.and (.call "gt" [.float (Binary.ofDecimal false 95 (-1))])
      (.call "lt" [.int 20]))]⟩]⟩

theorem ageTree_derives :
    Bare.Traversal.Derives (Scanned.ofSource ageSource).kinds ageTree := by
  have hkinds : (Scanned.ofSource ageSource).kinds = [.ident "g", .dot, .ident "V", .leftParen,
      .rightParen, .dot, .ident "has", .leftParen, .string .single "age", .comma, .ident "P",
      .dot, .ident "gt", .leftParen, .float (Binary.ofDecimal false 95 (-1)), .rightParen, .dot,
      .ident "and", .leftParen, .ident "lt", .leftParen, .int 20, .rightParen, .rightParen,
      .rightParen] := by decide +kernel
  rw [hkinds]
  have hgt := Bare.Predicate.CallDerives.intro (.qualified (.inl rfl) "gt")
    (.cons (.float (Binary.ofDecimal false 95 (-1))) .nil)
  have hlt := Bare.Predicate.CallDerives.intro (.plain "lt") (.cons (.int 20) .nil)
  have hpredicate := Bare.Predicate.Derives.intro hgt
    (.cons (.intro .and (Bare.Predicate.Derives.intro hlt .nil)) .nil)
  have hhas := Bare.Call.Derives.intro "has"
    (.cons (.literal (.string .single "age")) (.cons (.intro (.predicate hpredicate)) .nil))
  exact Bare.Traversal.Derives.intro "g" (.intro "V" .nil) (.cons (After.intro hhas) .nil)

theorem ageTree_writable : AllWritable (fun _ => "9.5".toList) ageTree.tokens := by
  have hname : ∀ name ∈ ["g", "V", "has", "gt", "and", "lt"], IsName name := by decide
  have hdecimal : IsDecimal ['9', '.', '5'] (Binary.ofDecimal false 95 (-1)) :=
    ⟨false, ['9'], ['5'], by decide, by decide, by decide, by decide, rfl⟩
  simp only [List.forall_mem_cons] at hname
  simp [AllWritable, ageTree, Bare.Traversal.tokens, Bare.Call.tokens, Bare.Argument.tokens,
    Bare.Predicate.tokens, Bare.Literal.tokens, callTokens, commas, Token.Writable, hname, hdecimal]

theorem parse_follows_grammar_ages :
    (Scanned.ofSource ageSource).failure = none ∧
      (∀ name, .ident name ∈ ageTree.tokens → IsName name) ∧
      (∀ value, .float value ∈ ageTree.tokens → IsDecimal "9.5".toList value) ∧
      ∃ expr, parse ageSource = .ok expr ∧ expr.bare = ageTree ∧
        ∃ again, parse (ageTree.text fun _ => "9.5".toList) = .ok again ∧ again.bare = ageTree := by
  have hfailure : (Scanned.ofSource ageSource).failure = none :=
    Option.isNone_iff_eq_none.mp (by decide +kernel)
  obtain ⟨hnames, hfloats⟩ := allWritable_iff.mp ageTree_writable
  obtain ⟨haccepts, htree⟩ := parse_follows_grammar.1 ageSource hfailure
  obtain ⟨expr, hparse⟩ := haccepts.mpr ⟨ageTree, ageTree_derives⟩
  have hbare : expr.bare = ageTree := ((htree expr hparse ageTree).mp ageTree_derives).symm
  have hagain := parse_follows_grammar.2 (fun _ => "9.5".toList) expr
  rw [hbare] at hagain
  exact ⟨hfailure, hnames, hfloats, expr, hparse, hbare, hagain hnames hfloats⟩

end Language
end Pushdown
