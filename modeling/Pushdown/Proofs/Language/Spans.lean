import Pushdown.Proofs.Language.Coverage
import Pushdown.Proofs.Language.Reading

/-!
# Spans of syntax trees

Every node of a syntax tree has a span: that of the text it was read from. The span of a node covers
those of its children, which stand one behind another. Where the parser fails, the span of its error
stands in the source as well.

The parser keeps this by reading from left to right: what it reads stands between what was read
before and the tokens that are left.

## Results

* `Row.node_merge`, `Row.call`: a node over trees in a row;
* `Scanned.ahead_ofSource`: the tokens of a source are in a row;
* `Parser.delimited_settles`: the items of a list, by induction on the fuel of its loop;
* `Parser.literal_places`, `Parser.predicate_places`, `Parser.call_places`: the parts of a
  traversal;
* `parse_settles`: a whole traversal, or the error in its place.
-/

namespace Pushdown
namespace Language

/-! ## Trees of spans -/

/-- The span of a node, and the trees of its children in order. -/
inductive SpanTree where
  | node (span : Span) (children : List SpanTree)

namespace SpanTree

/-- The span of the root. -/
def span : SpanTree → Span
  | node span _ => span

/-- The tree of a node without children. -/
def leaf (span : Span) : SpanTree := node span []

/-- The spans of a tree are those of a text that is nested in the same way: every node has
characters, its children are parts of it, and they stand one behind another. -/
inductive WellFormed (source : String) : SpanTree → Prop
  | node {span : Span} {children : List SpanTree} :
      span.StandsIn source → span.start < span.stop →
      (∀ child ∈ children, span.start ≤ child.span.start ∧ child.span.stop ≤ span.stop) →
      children.Pairwise (fun first second => first.span.stop ≤ second.span.start) →
      (∀ child ∈ children, WellFormed source child) →
      WellFormed source (node span children)

variable {source : String} {tree : SpanTree}

theorem WellFormed.standsIn (h : tree.WellFormed source) : tree.span.StandsIn source := by
  cases h with
  | node hspan => exact hspan

theorem WellFormed.nonempty (h : tree.WellFormed source) : tree.span.start < tree.span.stop := by
  cases h with
  | node _ hnonempty => exact hnonempty

theorem WellFormed.children {span : Span} {children : List SpanTree}
    (h : (SpanTree.node span children).WellFormed source) :
    ∀ child ∈ children, child.WellFormed source := by
  cases h with
  | node _ _ _ _ hchildren => exact hchildren

end SpanTree

open SpanTree

mutual

/-- The trees of the children of a literal. -/
def Literal.childTrees : Literal → List SpanTree
  | .list items => Literal.itemTrees items
  | .map entries => Literal.entryTrees entries
  | _ => []

/-- The trees of some literals. -/
def Literal.itemTrees : List (Spanned Literal) → List SpanTree
  | [] => []
  | ⟨item, span⟩ :: items => .node span (Literal.childTrees item) :: Literal.itemTrees items

/-- The trees of the keys and values of map entries. -/
def Literal.entryTrees : List (Spanned String × Spanned Literal) → List SpanTree
  | [] => []
  | (key, ⟨item, span⟩) :: entries =>
      leaf key.span :: .node span (Literal.childTrees item) :: Literal.entryTrees entries

end

/-- The tree of a literal in its place. -/
def Literal.spanTree (item : Spanned Literal) : SpanTree :=
  .node item.span item.value.childTrees

theorem Literal.itemTrees_eq (items : List (Spanned Literal)) :
    Literal.itemTrees items = items.map Literal.spanTree := by
  induction items with
  | nil => rfl
  | cons item items ih => rw [Literal.itemTrees, ih, List.map_cons, Literal.spanTree]

/-- The trees of a map entry. -/
def Literal.entryTree (entry : Spanned String × Spanned Literal) : List SpanTree :=
  [leaf entry.1.span, Literal.spanTree entry.2]

theorem Literal.entryTrees_eq (entries : List (Spanned String × Spanned Literal)) :
    Literal.entryTrees entries = entries.flatMap Literal.entryTree := by
  induction entries with
  | nil => rfl
  | cons entry entries ih => rw [Literal.entryTrees, ih]; rfl

/-- The tree of a predicate. -/
def PredicateExpr.spanTree : PredicateExpr → SpanTree
  | .call name arguments span =>
      .node span (leaf name.span :: arguments.map Literal.spanTree)
  | .and left right => .node (left.span.merge right.span) [left.spanTree, right.spanTree]
  | .or left right => .node (left.span.merge right.span) [left.spanTree, right.spanTree]

/-- The tree of an argument. -/
def Argument.spanTree : Argument → SpanTree
  | .literal l => Literal.spanTree l
  | .predicate p => p.spanTree

/-- The tree of a call. -/
def StepCall.spanTree (call : StepCall) : SpanTree :=
  .node call.span (leaf call.name.span :: call.arguments.map Argument.spanTree)

/-- The tree of a traversal. -/
def TraversalExpr.spanTree (expr : TraversalExpr) : SpanTree :=
  .node expr.span
    (leaf expr.source.span :: expr.start.spanTree :: expr.steps.map StepCall.spanTree)

theorem PredicateExpr.span_spanTree (p : PredicateExpr) : p.spanTree.span = p.span := by
  cases p <;> rfl

theorem Argument.span_spanTree : ∀ a : Argument, a.spanTree.span = a.span
  | .literal _ => rfl
  | .predicate p => p.span_spanTree

theorem PredicateExpr.standsIn {source : String} {p : PredicateExpr}
    (h : p.spanTree.WellFormed source) : p.span.StandsIn source :=
  p.span_spanTree ▸ h.standsIn

theorem Argument.standsIn {source : String} {a : Argument} (h : a.spanTree.WellFormed source) :
    a.span.StandsIn source :=
  a.span_spanTree ▸ h.standsIn

/-! ## Trees in a row -/

/-- Trees stand in a source one behind another, between two offsets. -/
structure Row (source : String) (low : Nat) (trees : List SpanTree) (high : Nat) : Prop where
  le : low ≤ high
  wellFormed : ∀ tree ∈ trees, tree.WellFormed source
  between : ∀ tree ∈ trees, low ≤ tree.span.start ∧ tree.span.stop ≤ high
  ordered : trees.Pairwise fun first second => first.span.stop ≤ second.span.start

namespace Row

variable {source : String} {low mid high : Nat} {tree first last : SpanTree}
  {trees others children : List SpanTree}

theorem nil (h : low ≤ high) : Row source low [] high :=
  ⟨h, List.forall_mem_nil _, List.forall_mem_nil _, .nil⟩

theorem single (h : tree.WellFormed source) (hlow : low ≤ tree.span.start)
    (hhigh : tree.span.stop ≤ high) : Row source low [tree] high where
  le := by
    have hnonempty := h.nonempty
    omega
  wellFormed := List.forall_mem_singleton.mpr h
  between := List.forall_mem_singleton.mpr ⟨hlow, hhigh⟩
  ordered := List.pairwise_singleton _ _

theorem append (h : Row source low trees mid) (hrest : Row source mid others high) :
    Row source low (trees ++ others) high where
  le := Nat.le_trans h.le hrest.le
  wellFormed := List.forall_mem_append.mpr ⟨h.wellFormed, hrest.wellFormed⟩
  between := List.forall_mem_append.mpr
    ⟨fun tree htree => ⟨(h.between tree htree).1, Nat.le_trans (h.between tree htree).2 hrest.le⟩,
      fun tree htree =>
        ⟨Nat.le_trans h.le (hrest.between tree htree).1, (hrest.between tree htree).2⟩⟩
  ordered := List.pairwise_append.mpr
    ⟨h.ordered, hrest.ordered, fun tree htree other hother =>
      Nat.le_trans (h.between tree htree).2 (hrest.between other hother).1⟩

theorem standsIn (h : Row source low (first :: trees) high) : first.span.StandsIn source :=
  (h.wellFormed first List.mem_cons_self).standsIn

/-- Some trees of a row are in a row. -/
theorem sublist (h : Row source low trees high) (hsub : others.Sublist trees) :
    Row source low others high where
  le := h.le
  wellFormed := fun tree htree => h.wellFormed tree (hsub.subset htree)
  between := fun tree htree => h.between tree (hsub.subset htree)
  ordered := h.ordered.sublist hsub

/-- The trees of a row stand between the start of the first and the end of the last. -/
theorem closed (h : Row source low (first :: (trees ++ [last])) high) :
    Row source first.span.start (first :: (trees ++ [last])) last.span.stop := by
  have hfirst := (h.wellFormed first List.mem_cons_self).nonempty
  have hlast := (h.wellFormed last (by simp)).nonempty
  obtain ⟨hbehind, hinner⟩ := List.pairwise_cons.mp h.ordered
  obtain ⟨-, -, hbefore⟩ := List.pairwise_append.mp hinner
  have hends := hbehind last (by simp)
  have hle : first.span.start ≤ last.span.stop := by omega
  refine ⟨hle, h.wellFormed, fun tree htree => ?_, h.ordered⟩
  have hnonempty := (h.wellFormed tree htree).nonempty
  rcases List.mem_cons.mp htree with rfl | hmem
  · omega
  · have hstart := hbehind tree hmem
    rcases List.mem_append.mp hmem with hmem | hmem
    · have hstop := hbefore tree hmem last List.mem_cons_self
      omega
    · obtain rfl := List.mem_singleton.mp hmem
      omega

/-- A node whose span reaches from the first tree of a row to the last, over some of its trees. -/
theorem node_merge (h : Row source low (first :: (trees ++ [last])) high)
    (hsub : children.Sublist (first :: (trees ++ [last]))) :
    Row source low [.node (first.span.merge last.span) children] high := by
  have hclosed := h.closed
  obtain ⟨hstart, hstop⟩ := hclosed.between first List.mem_cons_self
  have hfirst := h.wellFormed first List.mem_cons_self
  have hlast := h.wellFormed last (by simp)
  have hlastStart := (hclosed.between last (by simp)).1
  have hmerge : first.span.merge last.span = ⟨first.span.start, last.span.stop⟩ := by
    rw [Span.merge, Nat.min_eq_left hlastStart, Nat.max_eq_right hstop]
  have hnonempty := hfirst.nonempty
  have hchildren := hclosed.sublist hsub
  rw [hmerge]
  refine single ?_ (h.between first List.mem_cons_self).1 (h.between last (by simp)).2
  exact .node ⟨hclosed.le, hlast.standsIn.inside, hfirst.standsIn.start, hlast.standsIn.stop⟩
    (by dsimp only; omega) hchildren.between hchildren.ordered hchildren.wellFormed

/-- A name, an opening token, and arguments up to a closing one are a call. -/
theorem call {name stop : Span} {opening : SpanTree} {mid' : Nat}
    (hname : Row source low [leaf name] mid) (hopening : Row source mid [opening] mid')
    (harguments : Row source mid' (trees ++ [leaf stop]) high) :
    Row source low [.node (name.merge stop) (leaf name :: trees)] high := by
  have hrow : Row source low (leaf name :: (opening :: trees ++ [leaf stop])) high :=
    hname.append (hopening.append harguments)
  exact hrow.node_merge (.cons_cons _ (.cons _ (List.sublist_append_left _ _)))

/-- The first tree of a row, and the others behind it. -/
theorem uncons (h : Row source low (first :: trees) high) :
    Row source low [first] first.span.stop ∧ Row source first.span.stop trees high := by
  have hfirst := h.between first List.mem_cons_self
  obtain ⟨hbehind, hordered⟩ := List.pairwise_cons.mp h.ordered
  refine ⟨single (h.wellFormed first List.mem_cons_self) hfirst.1 (Nat.le_refl _), hfirst.2,
    fun tree htree => h.wellFormed tree (List.mem_cons_of_mem _ htree),
    fun tree htree => ⟨hbehind tree htree, ?_⟩, hordered⟩
  exact (h.between tree (List.mem_cons_of_mem _ htree)).2

end Row

/-! ## Tokens that are left -/

/-- The tokens that are left stand in the source one behind another, from an offset on. -/
structure Scanned.Ahead (source : String) (offset : Nat) (s : Scanned) : Prop where
  size : s.size = source.utf8ByteSize
  failure : ∀ invalid ∈ s.failure, invalid.span.StandsIn source
  tokens : Row source offset (s.tokens.map fun tok => leaf tok.span) source.utf8ByteSize

/-- Some characters of a source stand in it. -/
theorem StandsAt.standsIn {source : String} {span : Span} {taken after : List Char}
    (h : StandsAt source.toList span taken after) : span.StandsIn source := by
  obtain ⟨before, hsource, rfl⟩ := h
  have hstart : IsBoundary source (byteLength before) :=
    isBoundary_iff.mpr ⟨before, taken ++ after, hsource, rfl⟩
  have hstop : IsBoundary source (byteLength (before ++ taken)) :=
    isBoundary_iff.mpr ⟨before ++ taken, after, by rw [hsource, List.append_assoc], rfl⟩
  refine ⟨?_, hstop.le, hstart, hstop⟩
  rw [spanOf, byteLength_append]
  exact Nat.le_add_right _ _

/-- The tokens of a source stand in it one behind another. -/
theorem Scanned.ahead_ofSource (source : String) : (Scanned.ofSource source).Ahead source 0 := by
  have hscan := tokenized_ofSource source
  obtain ⟨hspans, hordered⟩ := hscan.ordered
  have hstands : ∀ tok ∈ (Scanned.ofSource source).tokens, tok.span.StandsIn source := by
    intro tok htok
    obtain ⟨taken, after, hat, -⟩ := hscan.tokens_standAt tok htok
    exact hat.standsIn
  refine ⟨byteLength_toList source, fun invalid hinvalid => ?_, ?_⟩
  · obtain ⟨-, taken, after, hat, -⟩ := hscan.failure_standsAt invalid hinvalid
    exact hat.standsIn
  · refine ⟨Nat.zero_le _, List.forall_mem_map.mpr fun tok htok => ?_,
      List.forall_mem_map.mpr fun tok htok => ⟨Nat.zero_le _, (hstands tok htok).inside⟩,
      List.pairwise_map.mpr (hordered.imp fun h => h.2)⟩
    exact .node (hstands tok htok) (hspans tok htok).2 (List.forall_mem_nil _) .nil
      (List.forall_mem_nil _)

namespace Parser

open Outcome

/-- The errors of a part of the parser stand in the source. -/
abbrev Gives {α : Type} (source : String) (done : α → Prop) (read : Parsed α) : Prop :=
  Settles (fun e => e.span.StandsIn source) done read

/-- What was read stands in the source from an offset on, before the tokens that are left. -/
def Reads {β : Type} (source : String) (offset : Nat) (trees : β → List SpanTree)
    (r : β × Scanned) : Prop :=
  ∃ stop, Row source offset (trees r.1) stop ∧ r.2.Ahead source stop

/-- A single tree that was read stands in the source. -/
theorem Reads.standsIn {β : Type} {source : String} {offset : Nat} {tree : β → SpanTree}
    {r : β × Scanned} (h : Reads source offset (fun x => [tree x]) r) :
    (tree r.1).span.StandsIn source := by
  obtain ⟨stop, hrow, -⟩ := h
  exact hrow.standsIn

/-- A part of the parser reads trees that stand one behind another, and fails within the source. -/
def Places {β : Type} (source : String) (read : Scanned → Parsed (β × Scanned))
    (trees : β → List SpanTree) : Prop :=
  ∀ offset s, s.Ahead source offset → Gives source (Reads source offset trees) (read s)

/-- The tree of a token. -/
def tokenTree (tok : SpannedToken) : SpanTree := leaf tok.span

/-- The tree of a name. -/
def nameTree (name : Spanned String) : SpanTree := leaf name.span

variable {source : String} {offset : Nat} {s : Scanned} {token closing : Token}

/-! ## Small steps -/

theorem outOfFuel_settles {α : Type} {done : α → Prop} (hs : s.Ahead source offset) :
    Gives source done (outOfFuel s) := by
  have hend := standsIn_at_utf8ByteSize source
  rwa [← hs.size] at hend

theorem next_settles (hs : s.Ahead source offset) :
    Gives source (Reads source offset fun tok => [tokenTree tok]) s.next := by
  obtain ⟨tokens, failure, size⟩ := s
  cases tokens with
  | cons tok rest =>
      obtain ⟨htok, hrest⟩ := hs.tokens.uncons
      exact ⟨tok.span.stop, htok, hs.size, hs.failure, hrest⟩
  | nil =>
      cases failure with
      | some invalid => exact hs.failure invalid rfl
      | none =>
          have hend := standsIn_at_utf8ByteSize source
          rwa [← hs.size] at hend

theorem peek?_settles (hs : s.Ahead source offset) :
    Gives source (fun found => ∀ tok ∈ found, tok.span.StandsIn source) s.peek? := by
  obtain ⟨tokens, failure, size⟩ := s
  cases tokens with
  | cons tok rest =>
      rintro _ ⟨⟩
      exact hs.tokens.standsIn
  | nil =>
      cases failure with
      | some invalid => exact hs.failure invalid rfl
      | none => exact fun _ h => by cases h

theorem eat_settles (hs : s.Ahead source offset) :
    Gives source (Reads source offset fun found => found.toList.map tokenTree)
      (s.eat token) := by
  obtain ⟨tokens, failure, size⟩ := s
  cases tokens with
  | cons tok rest =>
      rw [Scanned.eat, Scanned.peek?]
      dsimp only
      split
      · exact next_settles hs
      · exact ⟨offset, .nil (Nat.le_refl _), hs⟩
  | nil =>
      cases failure with
      | some invalid => exact hs.failure invalid rfl
      | none => exact ⟨offset, .nil (Nat.le_refl _), hs⟩

theorem expect_settles (hs : s.Ahead source offset) :
    Gives source (Reads source offset fun tok => [tokenTree tok]) (s.expect token) := by
  rw [Scanned.expect]
  refine (next_settles hs).elim (fun _ he => he) ?_
  rintro ⟨tok, rest⟩ htok
  dsimp only
  split
  · exact htok
  · exact htok.standsIn

theorem expectWith_settles {hint : Hint} (hs : s.Ahead source offset) :
    Gives source (Reads source offset fun tok => [tokenTree tok]) (s.expectWith token hint) := by
  rw [Scanned.expectWith]
  exact (expect_settles hs).elim (fun _ he => he) fun _ htok => htok

theorem word_settles (hs : s.Ahead source offset) :
    Gives source (Reads source offset fun name => [nameTree name]) s.word := by
  rw [Scanned.word]
  refine (next_settles hs).elim (fun _ he => he) ?_
  rintro ⟨⟨kind, span⟩, rest⟩ htok
  cases kind with
  | ident name => exact htok
  | _ => exact htok.standsIn

theorem mapKey_settles (hs : s.Ahead source offset) :
    Gives source (Reads source offset fun key => [nameTree key]) s.mapKey := by
  rw [Scanned.mapKey]
  refine (next_settles hs).elim (fun _ he => he) ?_
  rintro ⟨⟨kind, span⟩, rest⟩ htok
  cases kind with
  | ident name => exact htok
  | string quote text => exact htok
  | _ => exact htok.standsIn

/-- What closes a list is read with its span, and a comma without one. -/
theorem close_settles {first : Bool} (hs : s.Ahead source offset) :
    Gives source (Reads source offset fun found => found.toList.map leaf)
      (s.close closing first) := by
  rw [Scanned.close]
  refine (eat_settles hs).elim (fun _ he => he) ?_
  rintro ⟨found, rest⟩ ⟨stop, hrow, hrest⟩
  cases found with
  | some tok => exact ⟨stop, hrow, hrest⟩
  | none =>
      dsimp only
      split
      · exact ⟨stop, hrow, hrest⟩
      · refine (next_settles hrest).elim (fun _ he => he) ?_
        rintro ⟨tok, others⟩ ⟨stop', htok, hothers⟩
        dsimp only
        split
        · exact ⟨stop', .nil (Nat.le_trans hrow.le htok.le), hothers⟩
        · exact htok.standsIn

/-! ## Lists -/

/-- The items of a list stand before what closes it. -/
theorem delimited_settles {β : Type} {item : Nat → Scanned → Parsed (β × Scanned)}
    {trees : β → List SpanTree} {fuel : Nat} {first : Bool}
    (hitem : ∀ k < fuel, Places source (item k) trees) (hs : s.Ahead source offset) :
    Gives source
      (fun r : List β × Span × Scanned => ∃ stop,
        Row source offset (r.1.flatMap trees ++ [leaf r.2.1]) stop ∧ r.2.2.Ahead source stop)
      (delimited closing item fuel first s) := by
  induction fuel generalizing first s offset with
  | zero => exact outOfFuel_settles hs
  | succ fuel ih =>
      rw [delimited]
      refine (close_settles hs).bind ?_
      rintro ⟨found, s₁⟩ ⟨mid, hclose, hs₁⟩
      cases found with
      | some stop => exact ⟨mid, hclose, hs₁⟩
      | none =>
          refine (hitem fuel (Nat.lt_succ_self fuel) mid s₁ hs₁).bind ?_
          rintro ⟨x, s₂⟩ ⟨mid₂, hx, hs₂⟩
          refine (ih (fun k hk => hitem k (Nat.lt_succ_of_lt hk)) hs₂).bind ?_
          rintro ⟨xs, stop, s₃⟩ ⟨last, hxs, hs₃⟩
          refine ⟨last, ?_, hs₃⟩
          rw [List.flatMap_cons, List.append_assoc]
          exact hclose.append (hx.append hxs)

/-! ## Literals -/

/-- The tree of a literal, as those of a row. -/
def literalTrees (item : Spanned Literal) : List SpanTree := [Literal.spanTree item]

variable {fuel : Nat}

theorem mapEntry_places (h : Places source (literal fuel) literalTrees) :
    Places source (mapEntry fuel) Literal.entryTree := by
  intro offset s hs
  rw [mapEntry]
  refine (mapKey_settles hs).bind ?_
  rintro ⟨key, s₁⟩ ⟨mid₁, hkey, hs₁⟩
  refine (expect_settles hs₁).bind ?_
  rintro ⟨colon, s₂⟩ ⟨mid₂, hcolon, hs₂⟩
  refine (h mid₂ s₂ hs₂).bind ?_
  rintro ⟨value, s₃⟩ ⟨stop, hvalue, hs₃⟩
  refine ⟨stop, (hkey.append (hcolon.append hvalue)).sublist ?_, hs₃⟩
  exact .cons_cons _ (.cons _ (.refl _))

theorem literal_places (fuel : Nat) : Places source (literal fuel) literalTrees := by
  induction fuel using Nat.strongRecOn with
  | ind fuel ih =>
      intro offset s hs
      cases fuel with
      | zero => exact outOfFuel_settles hs
      | succ fuel =>
          -- Each item has a fuel of its own, so all smaller ones are needed.
          have hbelow : ∀ k < fuel, Places source (literal k) literalTrees :=
            fun k hk => ih k (Nat.lt_succ_of_lt hk)
          refine (next_settles hs).bind ?_
          rintro ⟨⟨kind, span⟩, s₁⟩ ⟨mid, hopen, hs₁⟩
          cases kind with
          | leftBracket =>
              dsimp only
              rw [literals_eq_delimited]
              refine (delimited_settles hbelow hs₁).bind ?_
              rintro ⟨items, stop, s₂⟩ ⟨last, hitems, hs₂⟩
              refine ⟨last, (hopen.append hitems).node_merge ?_, hs₂⟩
              rw [Literal.childTrees, Literal.itemTrees_eq, List.map_eq_flatMap]
              exact .cons _ (List.sublist_append_left _ _)
          | leftBrace =>
              dsimp only
              rw [mapEntries_eq_delimited]
              refine (delimited_settles (fun k hk => mapEntry_places (hbelow k hk)) hs₁).bind ?_
              rintro ⟨entries, stop, s₂⟩ ⟨last, hentries, hs₂⟩
              refine ⟨last, (hopen.append hentries).node_merge ?_, hs₂⟩
              rw [Literal.childTrees, Literal.entryTrees_eq]
              exact .cons _ (List.sublist_append_left _ _)
          | nullWord | trueWord | falseWord | int | float | string => exact ⟨mid, hopen, hs₁⟩
          | _ => exact hopen.standsIn

/-! ## Predicates -/

/-- The tree of a predicate, as those of a row. -/
def predicateTrees (p : PredicateExpr) : List SpanTree := [p.spanTree]

theorem predicateName_places : Places source predicateName fun name => [nameTree name] := by
  intro offset s hs
  rw [predicateName]
  refine (word_settles hs).bind ?_
  rintro ⟨name, s₁⟩ ⟨mid, hname, hs₁⟩
  dsimp only
  split
  · refine (eat_settles hs₁).bind ?_
    rintro ⟨found, s₂⟩ ⟨mid₂, hdot, hs₂⟩
    cases found with
    | none => exact ⟨mid₂, hname.append hdot, hs₂⟩
    | some dot =>
        refine (word_settles hs₂).bind ?_
        rintro ⟨qualified, s₃⟩ ⟨stop, hqualified, hs₃⟩
        exact ⟨stop, (hname.append (hdot.append hqualified)).node_merge (List.nil_sublist _), hs₃⟩
  · exact ⟨mid, hname, hs₁⟩

theorem predicateCall_places (fuel : Nat) : Places source (predicateCall fuel) predicateTrees := by
  intro offset s hs
  rw [predicateCall]
  refine (predicateName_places offset s hs).bind ?_
  rintro ⟨name, s₁⟩ ⟨mid₁, hname, hs₁⟩
  refine (expectWith_settles hs₁).bind ?_
  rintro ⟨opening, s₂⟩ ⟨mid₂, hopening, hs₂⟩
  dsimp only
  rw [literals_eq_delimited]
  refine (delimited_settles (fun k _ => literal_places k) hs₂).bind ?_
  rintro ⟨arguments, stop, s₃⟩ ⟨last, harguments, hs₃⟩
  refine ⟨last, ?_, hs₃⟩
  rw [predicateTrees, PredicateExpr.spanTree, List.map_eq_flatMap]
  exact hname.call hopening harguments

/-- Two predicates with some tokens between them are joined within the source. -/
theorem joined_settles {left right : PredicateExpr} {word : Spanned String} {stop : Nat}
    {between : List SpanTree} (hword : word.span.StandsIn source)
    (h : Row source offset (predicateTrees left ++ (between ++ predicateTrees right)) stop) :
    Gives source (fun p => Row source offset (predicateTrees p) stop) (joined left word right) := by
  have hchildren : [left.spanTree, right.spanTree].Sublist
      (left.spanTree :: (between ++ [right.spanTree])) :=
    .cons_cons _ (List.sublist_append_right _ _)
  have hnode := Row.node_merge h hchildren
  rw [left.span_spanTree, right.span_spanTree] at hnode
  rw [joined]
  split
  · exact hnode
  · split
    · exact hnode
    · exact hword

/-- A predicate is read in its place, and joined to others in theirs. -/
theorem predicate_connected_settle (fuel : Nat) :
    Places source (predicate fuel) predicateTrees ∧
      ∀ offset mid left s, Row source offset (predicateTrees left) mid → s.Ahead source mid →
        Gives source (Reads source offset predicateTrees) (connected fuel left s) := by
  induction fuel with
  | zero => exact ⟨fun _ _ hs => outOfFuel_settles hs, fun _ _ _ _ _ hs => outOfFuel_settles hs⟩
  | succ fuel ih =>
      obtain ⟨ihPredicate, ihConnected⟩ := ih
      constructor
      · intro offset s hs
        rw [predicate]
        refine (predicateCall_places fuel offset s hs).bind ?_
        rintro ⟨left, s₁⟩ ⟨mid, hleft, hs₁⟩
        exact ihConnected offset mid left s₁ hleft hs₁
      · intro offset mid left s hleft hs
        rw [connected]
        refine (eat_settles hs).bind ?_
        rintro ⟨found, s₁⟩ ⟨mid₁, hdot, hs₁⟩
        cases found with
        | none => exact ⟨mid₁, hleft.append hdot, hs₁⟩
        | some dot =>
            refine (word_settles hs₁).bind ?_
            rintro ⟨word, s₂⟩ ⟨mid₂, hword, hs₂⟩
            refine (expect_settles hs₂).bind ?_
            rintro ⟨opening, s₃⟩ ⟨mid₃, hopening, hs₃⟩
            refine (ihPredicate mid₃ s₃ hs₃).bind ?_
            rintro ⟨right, s₄⟩ ⟨mid₄, hright, hs₄⟩
            refine (expect_settles hs₄).bind ?_
            rintro ⟨closing, s₅⟩ ⟨mid₅, hclosing, hs₅⟩
            have hbetween := hdot.append (hword.append hopening)
            refine (joined_settles hword.standsIn (hleft.append (hbetween.append hright))).bind ?_
            intro p hp
            -- The closing parenthesis is no part of the predicate it ends.
            refine ihConnected offset mid₅ p s₅ ((hp.append hclosing).sublist ?_) hs₅
            exact List.sublist_append_left _ _

theorem predicate_places (fuel : Nat) : Places source (predicate fuel) predicateTrees :=
  (predicate_connected_settle fuel).1

/-! ## Calls -/

theorem argument_places (fuel : Nat) :
    Places source (argument fuel) fun a => [a.spanTree] := by
  intro offset s hs
  rw [argument]
  refine (peek?_settles hs).bind fun next _ => ?_
  split
  · refine (predicate_places fuel offset s hs).bind ?_
    rintro ⟨p, s₁⟩ hp
    exact hp
  · refine (literal_places fuel offset s hs).bind ?_
    rintro ⟨l, s₁⟩ hl
    exact hl

theorem call_places (fuel : Nat) : Places source (call fuel) fun c => [c.spanTree] := by
  intro offset s hs
  rw [call]
  refine (word_settles hs).bind ?_
  rintro ⟨name, s₁⟩ ⟨mid₁, hname, hs₁⟩
  refine (expectWith_settles hs₁).bind ?_
  rintro ⟨opening, s₂⟩ ⟨mid₂, hopening, hs₂⟩
  dsimp only
  rw [arguments_eq_delimited]
  refine (delimited_settles (fun k _ => argument_places k) hs₂).bind ?_
  rintro ⟨arguments, stop, s₃⟩ ⟨last, harguments, hs₃⟩
  refine ⟨last, ?_, hs₃⟩
  dsimp only [StepCall.spanTree]
  rw [List.map_eq_flatMap]
  exact hname.call hopening harguments

theorem calls_places (fuel : Nat) :
    Places source (calls fuel) fun steps => steps.map StepCall.spanTree := by
  induction fuel with
  | zero => exact fun _ _ hs => outOfFuel_settles hs
  | succ fuel ih =>
      intro offset s hs
      rw [calls]
      refine (eat_settles hs).bind ?_
      rintro ⟨found, s₁⟩ ⟨mid₁, hdot, hs₁⟩
      cases found with
      | none => exact ⟨mid₁, hdot, hs₁⟩
      | some dot =>
          refine (call_places fuel mid₁ s₁ hs₁).bind ?_
          rintro ⟨step, s₂⟩ ⟨mid₂, hstep, hs₂⟩
          refine (ih mid₂ s₂ hs₂).bind ?_
          rintro ⟨steps, s₃⟩ ⟨stop, hsteps, hs₃⟩
          refine ⟨stop, (hdot.append (hstep.append hsteps)).sublist ?_, hs₃⟩
          exact List.sublist_append_right _ _

/-! ## Traversals -/

/-- A name, a point, and calls one behind another are a traversal, which ends with the last of
them. -/
theorem wellFormed_traversal {name : Spanned String} {dot : SpanTree} {start : StepCall}
    {steps : List StepCall} {stop : Nat}
    (h : Row source offset
      (leaf name.span :: dot :: start.spanTree :: steps.map StepCall.spanTree) stop) :
    (TraversalExpr.mk name start steps
      (name.span.merge ((steps.getLast?.map StepCall.span).getD start.span))).spanTree.WellFormed
      source := by
  obtain ⟨init, last, hcalls⟩ :=
    (List.eq_nil_or_concat (start :: steps)).resolve_left (List.cons_ne_nil _ _)
  rw [List.concat_eq_append] at hcalls
  have hlast : steps.getLast?.getD start = last := by
    rw [← Option.some.injEq, ← List.getLast?_cons, hcalls, List.getLast?_concat]
  have htrees : start.spanTree :: steps.map StepCall.spanTree =
      init.map StepCall.spanTree ++ [last.spanTree] := by
    rw [← List.map_cons, hcalls, List.map_append, List.map_singleton]
  have hchildren : (leaf name.span :: start.spanTree :: steps.map StepCall.spanTree).Sublist
      (leaf name.span :: (dot :: init.map StepCall.spanTree ++ [last.spanTree])) := by
    rw [List.cons_append, htrees]
    exact .cons_cons _ (.cons _ (.refl _))
  rw [htrees] at h
  rw [Option.getD_map, hlast]
  exact (h.node_merge hchildren).wellFormed _ List.mem_cons_self

theorem traversal_settles (hs : s.Ahead source offset) :
    Gives source (fun expr => expr.spanTree.WellFormed source) (traversal s) := by
  rw [traversal]
  refine (word_settles hs).bind ?_
  rintro ⟨name, s₁⟩ ⟨mid₁, hname, hs₁⟩
  refine (expect_settles hs₁).bind ?_
  rintro ⟨dot, s₂⟩ ⟨mid₂, hdot, hs₂⟩
  refine (call_places _ mid₂ s₂ hs₂).bind ?_
  rintro ⟨start, s₃⟩ ⟨mid₃, hstart, hs₃⟩
  refine (calls_places _ mid₃ s₃ hs₃).bind ?_
  rintro ⟨steps, s₄⟩ ⟨stop, hsteps, hs₄⟩
  refine (peek?_settles hs₄).bind fun next hnext => ?_
  cases next with
  | some tok => exact hnext tok rfl
  | none =>
      exact wellFormed_traversal (hname.append (hdot.append (hstart.append hsteps)))

end Parser

/-- The spans of a syntax tree are well formed, and an error of the parser stands in the source. -/
theorem parse_settles (source : String) :
    Parser.Gives source (fun expr => expr.spanTree.WellFormed source) (parse source) :=
  Parser.traversal_settles (Scanned.ahead_ofSource source)

end Language
end Pushdown
