import Pushdown.Proofs.Store.Answers
import Pushdown.Proofs.Filter.Letters

/-!
# Answers to neighborhoods

The store takes the direction of a neighborhood from the first keyword in its text, in the order
of outgoing, incoming and both. The names and labels that the query quotes may hold a keyword
too. If they hold none that is tried earlier, and no mark of a fetch, the direction is followed.

## Results

* `GraphConfig.exists_read_direction`: the direction that is read;
* `GraphConfig.returns_incident_of_directed`, `GraphConfig.exists_not_returns_incident`: the
  answer to a neighborhood.
-/

namespace Pushdown

open Store

namespace Direction

/-- The directions whose keywords are tried before that of another. -/
def earlier : Direction → List Direction
  | outgoing => []
  | incoming => [outgoing]
  | both => [outgoing, incoming]

/-- The mark of a direction in a query. -/
def mark (direction : Direction) : String := " " ++ direction.keyword ++ " "

end Direction

namespace GraphConfig

variable {raw config : GraphConfig} {filter : Filter} {direction : Direction}
  {target : ElementKind}

/-- What a neighborhood starts with, up to the name of the graph. -/
def neighborHead (direction : Direction) : String :=
  "FOR v, e IN 1..1 " ++ direction.keyword ++ " @startId GRAPH "

/-- The pieces of a neighborhood from the name of the graph on. -/
def neighborTail (config : GraphConfig) (filter : Filter) (target : ElementKind) : List Piece :=
  .literal config.graph :: .plain " OPTIONS \x7bedgeCollections: @edgeCollections\x7d" ::
    filter.clausePieces "e" ++ [.plain (" RETURN " ++ neighborVariable target)]

/-- The texts that a neighborhood quotes: the name of the graph, and the label field and the labels
that are filtered by. -/
def neighborTexts (config : GraphConfig) (filter : Filter) : List String :=
  config.graph :: Piece.quotedTexts (filter.clausePieces "e")

theorem quotedTexts_neighborTail (config : GraphConfig) (filter : Filter) (target : ElementKind) :
    Piece.quotedTexts (config.neighborTail filter target) = config.neighborTexts filter := by
  simp [neighborTail, neighborTexts]

theorem neighborText_eq_pieces (head options last graph : String) :
    (head ++ Quoted.quote graph ++ options ++ filter.clause "e" ++ last).toList =
      head.toList ++ Piece.write
        (.literal graph :: .plain options :: filter.clausePieces "e" ++ [.plain last]) := by
  simp only [Piece.write, Piece.text, String.toList_append, Filter.clause_eq_pieces,
    List.flatMap_cons, List.flatMap_append, List.flatMap_nil, List.append_assoc, List.cons_append,
    List.append_nil]

/-- A neighborhood is written from pieces, and binds its start and its collections. -/
theorem neighborQuery_eq_ok {start : ElementId} {labels : List String} {query : Query}
    (h : config.neighborQuery start direction labels target = .ok query) :
    ∃ startId names filter, start.documentId? = some startId ∧
      config.neighborCollections labels = .ok (names, filter) ∧
      query.text.toList = (neighborHead direction).toList ++
        Piece.write (config.neighborTail filter target) ∧
      (∃ first, query.text = first ++ (" RETURN " ++ neighborVariable target)) ∧
      query.bindings = [("edgeCollections", Json.strings (names.map config.physicalCollection)),
        ("startId", .string startId)] := by
  unfold neighborQuery at h
  split at h
  · cases h
  · next startId hstart =>
    split at h
    · cases h
    · next names filter hnames =>
      cases h
      refine ⟨startId, names, filter, hstart, hnames, ?_, ⟨_, String.append_assoc⟩, rfl⟩
      rw [String.append_assoc]
      exact neighborText_eq_pieces _ _ _ _

theorem without_neighborTail {d : Char} (hletter : d ∉ fixedLetters)
    (hoptions : d ∉ " OPTIONS \x7bedgeCollections: @edgeCollections\x7d".toList) :
    Piece.Without d (config.neighborTail filter target) := by
  have hreturn : Piece.Spelled fixedLetters [.plain (" RETURN " ++ neighborVariable target)] := by
    cases target
    · exact Piece.spelled_fixed (by decide)
    · exact Piece.spelled_fixed (by decide)
  intro text hmem
  rw [neighborTail, List.cons_append, List.mem_cons, List.cons_append, List.mem_cons,
    List.mem_append] at hmem
  rcases hmem with h | h | h | h
  · cases h
  · cases h
    exact hoptions
  · exact (filter.spelled_clausePieces "e").without hletter text h
  · exact hreturn.without hletter text h

section Marks

variable {text : String}

/-- The mark of a fetch occurs in a neighborhood where it quotes it. -/
theorem contains_fetchMark_iff (htext : text.toList = (neighborHead direction).toList ++
      Piece.write (config.neighborTail filter target)) :
    Text.contains text fetchMark = true ↔
      ∃ quoted ∈ config.neighborTexts filter, Text.contains quoted fetchMark = true := by
  have hbare : Piece.Bare fetchMark.toList := ⟨by decide, by decide, by decide⟩
  have hhead : 'M' ∉ (neighborHead direction).toList := by cases direction <;> decide
  simp only [Text.contains_iff, htext, ← quotedTexts_neighborTail config filter target]
  exact Piece.infix_append_write_iff hbare (by decide)
    (without_neighborTail (by decide) (by decide)) hhead

/-- A mark that is tried earlier is not in what a neighborhood starts with. -/
theorem bare_mark {other : Direction} (hother : other ∈ direction.earlier) :
    Piece.Bare other.mark.toList ∧ 'B' ∈ other.mark.toList ∧
      Text.contains (neighborHead direction) other.mark = false := by
  have hearly : other = .outgoing ∨ other = .incoming := by
    cases direction <;> cases other <;> simp [Direction.earlier] at hother ⊢
  have hhead : ∀ d d' : Direction, d' ∈ d.earlier →
      Text.contains (neighborHead d) d'.mark = false := by
    intro d d' h
    cases d <;> cases d' <;> first | decide | simp [Direction.earlier] at h
  refine ⟨?_, ?_, hhead direction other hother⟩
  · rcases hearly with rfl | rfl
    · exact ⟨by decide, by decide, by decide⟩
    · exact ⟨by decide, by decide, by decide⟩
  · rcases hearly with rfl | rfl
    · decide
    · decide

/-- The mark of a direction that is tried earlier occurs in a neighborhood where it quotes it. -/
theorem contains_mark_iff (htext : text.toList = (neighborHead direction).toList ++
      Piece.write (config.neighborTail filter target)) {other : Direction}
    (hother : other ∈ direction.earlier) :
    Text.contains text other.mark = true ↔
      ∃ quoted ∈ config.neighborTexts filter, Text.contains quoted other.mark = true := by
  obtain ⟨hbare, hletter, hhead⟩ := bare_mark hother
  have hfence : other.mark.toList <:+: (neighborHead direction).toList ++
        Piece.write (config.neighborTail filter target) ↔
      other.mark.toList <:+: Piece.write (config.neighborTail filter target) := by
    rw [← Bool.not_eq_true, Text.contains_iff] at hhead
    have hnil : ¬ other.mark.toList <:+: [] := by
      rw [List.infix_nil]
      exact List.ne_nil_of_mem hletter
    obtain ⟨rest, hrest⟩ : ∃ rest, Piece.write (config.neighborTail filter target) =
        '"' :: rest := by
      rw [neighborTail, List.cons_append, Piece.write_literal_cons]
      exact ⟨_, rfl⟩
    have hquote : other.mark.toList <:+: [] ++ '"' :: rest ↔
        other.mark.toList <:+: [] ∨ other.mark.toList <:+: rest :=
      Text.infix_fence hbare.noDoubleQuote
    rw [List.nil_append, or_iff_right hnil] at hquote
    rw [hrest, hquote, Text.infix_fence hbare.noDoubleQuote, or_iff_right hhead]
  simp only [Text.contains_iff, htext, hfence, ← quotedTexts_neighborTail config filter target]
  exact Piece.infix_write_iff hbare hletter (without_neighborTail (by decide) (by decide))

/-- A neighborhood carries the mark of its direction. -/
theorem contains_own_mark (htext : text.toList = (neighborHead direction).toList ++
      Piece.write (config.neighborTail filter target)) :
    Text.contains text direction.mark = true ∧ Text.contains text neighborMark = true := by
  have hhead : Text.contains (neighborHead direction) direction.mark = true ∧
      Text.contains (neighborHead direction) neighborMark = true := by
    cases direction <;> decide
  simp only [Text.contains_iff, htext] at hhead ⊢
  have hstart := List.prefix_append (neighborHead direction).toList
    (Piece.write (config.neighborTail filter target))
  exact ⟨hhead.1.trans hstart.isInfix, hhead.2.trans hstart.isInfix⟩

end Marks

end GraphConfig

namespace Store

variable {text : String}

/-- The direction that is read is the one whose mark is there, or one that is tried earlier. -/
theorem directionOf?_of_contains {direction : Direction}
    (hown : Text.contains text direction.mark = true) :
    ∃ read, directionOf? text = some read ∧
      (read = direction ∧ (∀ other ∈ direction.earlier, Text.contains text other.mark = false) ∨
        read ∈ direction.earlier ∧ Text.contains text read.mark = true) := by
  have hread : directionOf? text =
    [Direction.outgoing, .incoming, .both].find? fun d => Text.contains text d.mark := rfl
  rw [hread]
  cases direction with
  | outgoing => exact ⟨.outgoing, by simp [hown], .inl ⟨rfl, by simp [Direction.earlier]⟩⟩
  | incoming =>
      cases hout : Text.contains text Direction.outgoing.mark with
      | true => exact ⟨.outgoing, by simp [hout], .inr ⟨by simp [Direction.earlier], hout⟩⟩
      | false =>
          exact ⟨.incoming, by simp [hout, hown], .inl ⟨rfl, by simp [Direction.earlier, hout]⟩⟩
  | both =>
      cases hout : Text.contains text Direction.outgoing.mark with
      | true => exact ⟨.outgoing, by simp [hout], .inr ⟨by simp [Direction.earlier], hout⟩⟩
      | false =>
          cases hin : Text.contains text Direction.incoming.mark with
          | true => exact ⟨.incoming, by simp [hout, hin], .inr ⟨by simp [Direction.earlier], hin⟩⟩
          | false =>
              exact ⟨.both, by simp [hout, hin, hown],
                .inl ⟨rfl, by simp [Direction.earlier, hout, hin]⟩⟩

/-- What a neighborhood returns is read from the end of its text. -/
theorem returnsEdges_iff {start : String} {target : ElementKind} :
    returnsEdges (start ++ (" RETURN " ++ GraphConfig.neighborVariable target)) = true ↔
      target = .edge := by
  rw [returnsEdges, String.toList_append, List.reverse_append, List.isPrefixOf_iff_prefix]
  cases target with
  | vertex =>
      have hlast : (" RETURN " ++ GraphConfig.neighborVariable .vertex).toList.reverse =
          'v' :: " NRUTER ".toList := rfl
      rw [hlast, List.cons_append, List.dropWhile_cons_of_neg (by decide)]
      simp [List.cons_prefix_cons]
  | edge =>
      have hlast : (" RETURN " ++ GraphConfig.neighborVariable .edge).toList.reverse =
          'e' :: " NRUTER ".toList := rfl
      rw [hlast, List.cons_append, List.dropWhile_cons_of_neg (by decide)]
      refine iff_of_true ?_ rfl
      exact ⟨' ' :: start.toList.reverse, rfl⟩

/-- The ends of an edge that is incident in a direction. -/
theorem otherEnd?_eq_some_iff {direction : Direction} {start other : String} {edge : Json} :
    otherEnd? direction start edge = some other ↔
      direction ≠ .incoming ∧ edge.stringField? "_from" = some start ∧
          edge.stringField? "_to" = some other ∨
        direction ≠ .outgoing ∧ edge.stringField? "_to" = some start ∧
          edge.stringField? "_from" = some other := by
  unfold otherEnd?
  dsimp only
  by_cases hfrom : direction ≠ .incoming ∧ edge.stringField? "_from" = some start
  · rw [if_pos hfrom]
    constructor
    · intro h
      exact .inl ⟨hfrom.1, hfrom.2, h⟩
    · rintro (⟨-, -, h⟩ | ⟨-, hto, h⟩)
      · exact h
      · rw [hto, ← hfrom.2, h]
  · rw [if_neg hfrom]
    by_cases hto : direction ≠ .outgoing ∧ edge.stringField? "_to" = some start
    · rw [if_pos hto]
      constructor
      · intro h
        exact .inr ⟨hto.1, hto.2, h⟩
      · rintro (⟨hdirection, h, -⟩ | ⟨-, -, h⟩)
        · exact absurd ⟨hdirection, h⟩ hfrom
        · exact h
    · rw [if_neg hto]
      constructor
      · intro h
        cases h
      · rintro (⟨hdirection, h, -⟩ | ⟨hdirection, h, -⟩)
        · exact absurd ⟨hdirection, h⟩ hfrom
        · exact absurd ⟨hdirection, h⟩ hto

end Store

namespace GraphConfig

variable {raw config : GraphConfig} {filter : Filter} {direction : Direction}
  {target : ElementKind} {start : ElementId} {labels names : List String} {query : Query}
  {startId : String}

/-- The rows of the edges of several collections that are incident in a direction: the edges, or the
documents at their other ends. -/
def incidentRows (config : GraphConfig) (names : List String) (store : Store)
    (direction : Direction) (startId : String) (target : ElementKind) : List Json :=
  names.flatMap fun name =>
    (Entries.values (store.documents (config.physicalCollection name))).filterMap
      (store.neighborRow? (target = .edge) direction startId)

/-- A neighborhood that the store reads as it was meant: what it quotes holds no mark of a fetch
and, if it looks in any collection, no mark of a direction that is tried earlier. -/
structure Directed (config : GraphConfig) (filter : Filter) (names : List String)
    (direction : Direction) : Prop where
  unmarked : ∀ text ∈ config.neighborTexts filter, Text.contains text fetchMark = false
  first : names ≠ [] → ∀ other ∈ direction.earlier, ∀ text ∈ config.neighborTexts filter,
    Text.contains text other.mark = false

/-- A neighborhood without the mark of a fetch follows some direction: its own, or one that is tried
earlier and whose mark it quotes. -/
theorem exists_read_direction
    (hquery : config.neighborQuery start direction labels target = .ok query)
    (hstart : start.documentId? = some startId)
    (hnames : config.neighborCollections labels = .ok (names, filter))
    (hunmarked : ∀ text ∈ config.neighborTexts filter, Text.contains text fetchMark = false) :
    ∃ read,
      (read = direction ∧ (∀ other ∈ direction.earlier, ∀ text ∈ config.neighborTexts filter,
          Text.contains text other.mark = false) ∨
        read ∈ direction.earlier ∧ ∃ text ∈ config.neighborTexts filter,
          Text.contains text read.mark = true) ∧
      ∀ store : Store, store.Unanswered query → ∀ rows,
        store.Returns query rows ↔ rows = config.incidentRows names store read startId target := by
  obtain ⟨startId', names', filter', hstart', hnames', htext, ⟨first, hlast⟩, hbindings⟩ :=
    neighborQuery_eq_ok hquery
  obtain rfl := Option.some.inj (hstart.symm.trans hstart')
  obtain ⟨rfl, rfl⟩ := Prod.mk.inj (Except.ok.inj (hnames.symm.trans hnames'))
  have hfetch : Text.contains query.text fetchMark = false := by
    refine Bool.eq_false_iff.mpr fun hmark => ?_
    obtain ⟨text, htexts, hmark⟩ := (contains_fetchMark_iff htext).mp hmark
    exact Bool.eq_false_iff.mp (hunmarked text htexts) hmark
  obtain ⟨hown, hneighbor⟩ := contains_own_mark htext
  obtain ⟨read, hread, hcase⟩ := directionOf?_of_contains hown
  refine ⟨read, ?_, ?_⟩
  · rcases hcase with ⟨hsame, hfirst⟩ | ⟨hearlier, hmark⟩
    · refine .inl ⟨hsame, fun other hother text htexts => ?_⟩
      refine Bool.eq_false_iff.mpr fun hmark => ?_
      exact Bool.eq_false_iff.mp (hfirst other hother)
        ((contains_mark_iff htext hother).mpr ⟨text, htexts, hmark⟩)
    · exact .inr ⟨hearlier, (contains_mark_iff htext hearlier).mp hmark⟩
  · intro store hstore rows
    have hedges : returnsEdges query.text = decide (target = .edge) := by
      rw [Bool.eq_iff_iff, decide_eq_true_iff, hlast]
      exact returnsEdges_iff
    have hbound : boundTexts query.bindings "edgeCollections" =
        .ok (names.map config.physicalCollection) :=
      boundTexts_strings (by rw [hbindings]; rfl)
    have hstartId :
        (Entries.find? "startId" query.bindings).bind Json.asString? = some startId := by
      rw [hbindings]
      rfl
    rw [returns_iff, answer_of_neighborMark hstore hfetch hneighbor, neighborhood, hstartId]
    dsimp only
    rw [hbound, hread, hedges]
    dsimp only
    rw [Except.ok.injEq, List.flatMap_map]
    exact eq_comm

/-- A neighborhood without misleading texts follows its direction. -/
theorem returns_incident_of_directed
    (hquery : config.neighborQuery start direction labels target = .ok query)
    (hstart : start.documentId? = some startId)
    (hnames : config.neighborCollections labels = .ok (names, filter))
    (h : Directed config filter names direction) {store : Store}
    (hstore : store.Unanswered query) :
    store.Returns query (config.incidentRows names store direction startId target) := by
  obtain ⟨read, hcase, hrows⟩ := exists_read_direction hquery hstart hnames h.unmarked
  rw [hrows store hstore]
  rcases hcase with ⟨rfl, -⟩ | ⟨hearlier, text, htext, hmark⟩
  · rfl
  · -- with no collection to look in there are no rows in either direction
    have hnil : names = [] := by
      refine Classical.byContradiction fun hne => ?_
      exact Bool.eq_false_iff.mp (h.first hne read hearlier text htext) hmark
    rw [hnil]
    rfl

/-- A neighborhood looks in collections of edges. -/
theorem mem_edges_of_neighborCollections
    (h : config.neighborCollections labels = .ok (names, filter)) :
    ∀ name ∈ names, name ∈ config.edges := by
  unfold neighborCollections at h
  split at h
  · cases h
    exact fun name hname => hname
  · split at h
    · split at h
      · cases h
      · next hknown =>
        cases h
        intro name hname
        have hcontains := List.find?_eq_none.mp hknown name hname
        simpa using hcontains
    · cases h
      exact fun name hname => hname

/-- An edge between two documents. -/
def edgeBetween (source target : String) : Json :=
  .object [("_from", .string source), ("_to", .string target)]

/-- A store with one edge. -/
def edgeStore (collection key : String) (edge : Json) : Store :=
  { Store.empty with collections := [(collection, [(key, edge)])] }

theorem ordered_edgeStore (collection key : String) (edge : Json) :
    (edgeStore collection key edge).Ordered where
  collections := List.pairwise_singleton _ _
  documents := by
    intro entry hentry
    obtain rfl := List.mem_singleton.mp hentry
    exact List.pairwise_singleton _ _

/-- For each direction that is tried before another there is an edge that is incident in the other
only. -/
theorem exists_edge_of_earlier {read : Direction} {other : String} (hne : other ≠ startId)
    (hearlier : read ∈ direction.earlier) :
    ∃ edge, otherEnd? direction startId edge = some other ∧ otherEnd? read startId edge = none := by
  have hfrom : ∀ source target : String,
      (edgeBetween source target).stringField? "_from" = some source := fun _ _ => rfl
  have hto : ∀ source target : String,
      (edgeBetween source target).stringField? "_to" = some target := fun _ _ => rfl
  cases read with
  | outgoing =>
      refine ⟨edgeBetween other startId, ?_, ?_⟩
      · rw [otherEnd?_eq_some_iff]
        refine .inr ⟨?_, hto _ _, hfrom _ _⟩
        rintro rfl
        cases hearlier
      · rw [otherEnd?, hfrom, hto]
        simp [hne]
  | incoming =>
      have hdirection : direction = .both := by
        cases direction <;> simp [Direction.earlier] at hearlier ⊢
      refine ⟨edgeBetween startId other, ?_, ?_⟩
      · rw [otherEnd?_eq_some_iff, hdirection]
        exact .inl ⟨by decide, hfrom _ _, hto _ _⟩
      · rw [otherEnd?, hfrom, hto]
        simp [hne]
  | both => cases direction <;> simp [Direction.earlier] at hearlier

section EdgeStore

variable {collection key other : String} {edge : Json}

theorem document?_edgeStore :
    (edgeStore collection key edge).document? collection key = some edge := by
  simp [Store.document?, Store.documents, edgeStore, Entries.find?]

theorem values_edgeStore (name : String) :
    Entries.values ((edgeStore collection key edge).documents name) =
      if collection = name then [edge] else [] := by
  simp only [Store.documents, edgeStore, Entries.find?]
  split <;> rfl

theorem incidentRows_edgeStore_eq_nil (h : otherEnd? direction startId edge = none) :
    config.incidentRows names (edgeStore collection key edge) direction startId target = [] := by
  rw [incidentRows, List.flatMap_eq_nil_iff]
  intro name _
  rw [values_edgeStore]
  split
  · simp [neighborRow?, h]
  · rfl

theorem incidentRows_edgeStore_ne_nil {name : String} (hname : name ∈ names)
    (hcollection : config.physicalCollection name = collection)
    (h : otherEnd? direction startId edge = some other)
    (hother : (edgeStore collection key edge).lookup? other = some edge) :
    config.incidentRows names (edgeStore collection key edge) direction startId target ≠ [] := by
  have hrow : (edgeStore collection key edge).neighborRow? (target = .edge) direction startId edge =
      some edge := by
    rw [neighborRow?, h]
    dsimp only
    rw [hother, ite_self]
  refine List.ne_nil_of_mem (a := edge) ?_
  rw [incidentRows, List.mem_flatMap]
  refine ⟨name, hname, ?_⟩
  rw [values_edgeStore, if_pos hcollection.symm, List.mem_filterMap]
  exact ⟨edge, List.mem_cons_self, hrow⟩

end EdgeStore

/-- A neighborhood with misleading texts does not follow its direction on every store. -/
theorem exists_not_returns_incident (hvalid : raw.validate = .ok config)
    (hquery : config.neighborQuery start direction labels target = .ok query)
    (hstart : start.documentId? = some startId)
    (hnames : config.neighborCollections labels = .ok (names, filter))
    (h : ¬ Directed config filter names direction) :
    ∃ store : Store, store.Ordered ∧ store.Unanswered query ∧
      ¬ store.Returns query (config.incidentRows names store direction startId target) := by
  by_cases hunmarked : ∀ text ∈ config.neighborTexts filter, Text.contains text fetchMark = false
  · obtain ⟨read, hcase, hrows⟩ := exists_read_direction hquery hstart hnames hunmarked
    rcases hcase with ⟨-, hfirst⟩ | ⟨hearlier, -⟩
    · exact absurd ⟨hunmarked, fun _ => hfirst⟩ h
    · have hne : names ≠ [] := fun hnil => h ⟨hunmarked, fun hne => absurd hnil hne⟩
      obtain ⟨name, rest, rfl⟩ := List.exists_cons_of_ne_nil hne
      have hname : name ∈ config.edges :=
        mem_edges_of_neighborCollections hnames name List.mem_cons_self
      -- the other end of the edge is the edge itself, under a key that makes it longer
      have hother : Store.documentId (config.physicalCollection name) startId ≠ startId := by
        intro heq
        have hlength := congrArg String.length heq
        simp [Store.documentId] at hlength
      obtain ⟨edge, hincident, hmissed⟩ := exists_edge_of_earlier hother hearlier
      have hpart : IdPart name := ((names_of_validate hvalid).2 .edge name hname).part
      have hseparator : keySeparator ∉ (config.physicalCollection name).toList :=
        keySeparator_not_mem_physicalCollection hvalid hpart
      let store := edgeStore (config.physicalCollection name) startId edge
      have hlookup : store.lookup? (Store.documentId (config.physicalCollection name) startId) =
          some edge := by
        rw [Store.lookup?_documentId store hseparator]
        exact document?_edgeStore
      have hstore : store.Unanswered query := rfl
      refine ⟨store, ordered_edgeStore _ _ _, hstore, fun hreturns => ?_⟩
      rw [hrows store hstore, incidentRows_edgeStore_eq_nil hmissed] at hreturns
      exact incidentRows_edgeStore_ne_nil List.mem_cons_self rfl hincident hlookup hreturns
  · -- the neighborhood is taken for a fetch, and binds no ids
    obtain ⟨_, _, _, hstart', hnames', htext, -, hbindings⟩ := neighborQuery_eq_ok hquery
    obtain ⟨rfl, rfl⟩ := Prod.mk.inj (Except.ok.inj (hnames.symm.trans hnames'))
    have hmark : Text.contains query.text fetchMark = true := by
      rw [contains_fetchMark_iff htext]
      simpa using hunmarked
    have hstore : Store.empty.Unanswered query := rfl
    have hordered : Store.empty.Ordered := ⟨List.Pairwise.nil, fun _ h => by cases h⟩
    refine ⟨Store.empty, hordered, hstore, fun hreturns => ?_⟩
    rw [returns_iff, answer_of_fetchMark hstore hmark, fetch, hbindings] at hreturns
    cases hreturns

end GraphConfig
end Pushdown
