import Pushdown.Graph.Variables
import Pushdown.Proofs.Store.Scans

/-!
# The collections that a scan reads

The store reads names from the text of a scan, which can be other names than those of its
collections. Whatever names a graph has, the collection of the variables is not read: a quote in
an escaped name stands behind a bar, and the names of the collections hold a separator.

## Results

* `Store.infix_of_mem_readNames`: a name that is read stands in the text;
* `GraphConfig.variablesCollection_not_mem_readCollections`: the variables are not read;
* `GraphConfig.answer_scan`: the answer to a scan of all elements of a kind.
-/

namespace Pushdown

namespace Filter

variable {text : List Char} {c : Char}

theorem not_quote_prefix_escapeName : ∀ text : List Char, ¬ [nameQuote] <+: escapeName text
  | [] => by simp [escapeName]
  | x :: text => by
      rw [escapeName]
      split
      · rw [List.cons_prefix_cons]
        rintro ⟨h, -⟩
        exact absurd h (by decide)
      · next hx =>
        rw [List.cons_prefix_cons]
        rintro ⟨h, -⟩
        exact hx (.inr h.symm)

/-- In an escaped name a quote stands behind a bar. -/
theorem not_infix_escapeName (hc : c ≠ '\\') :
    ∀ text : List Char, ¬ [c, nameQuote] <:+: escapeName text
  | [] => by simp [escapeName]
  | x :: text => by
      have ih := not_infix_escapeName hc text
      have hstart : ∀ y, ¬ [c, nameQuote] <+: y :: escapeName text := by
        intro y h
        rw [List.cons_prefix_cons] at h
        exact not_quote_prefix_escapeName text h.2
      rw [escapeName]
      split
      · rw [List.infix_cons_iff, List.infix_cons_iff, not_or, not_or]
        refine ⟨fun h => ?_, hstart x, ih⟩
        rw [List.cons_prefix_cons] at h
        exact hc h.1
      · rw [List.infix_cons_iff, not_or]
        exact ⟨hstart x, ih⟩

end Filter

namespace Store

variable {name : String} {before after : List Char}

theorem infix_of_mem_scannedNames : ∀ {fuel : Nat} {text : List Char},
    name ∈ scannedNames fuel text → opening ++ name.toList ++ [Filter.nameQuote] <:+: text
  | 0, _, h => by cases h
  | fuel + 1, text, h => by
      rw [scannedNames_succ] at h
      split at h
      · cases h
      · next before rest hopen =>
        split at h
        · cases h
        · next found after hclose =>
          obtain ⟨rfl, -⟩ := splitAtText?_opening_iff.mp hopen
          obtain ⟨-, rfl⟩ := Text.splitAt?_eq_some_iff.mp hclose
          rcases List.mem_cons.mp h with rfl | h
          · exact ⟨before, after, by simp⟩
          · have hrest := infix_of_mem_scannedNames h
            have hsuffix : after <:+ before ++ opening ++ (found ++ Filter.nameQuote :: after) :=
              List.suffix_append_of_suffix (List.suffix_append_of_suffix (List.suffix_cons _ _))
            exact hrest.trans hsuffix.isInfix

/-- A name that is read stands in the text, between an opening and a quote. -/
theorem infix_of_mem_readNames {text : List Char} (h : name ∈ readNames text) :
    opening ++ name.toList ++ [Filter.nameQuote] <:+: text :=
  infix_of_mem_scannedNames h

/-- The name of the collection of the variables, as it would be read. -/
def quotedVariables : List Char :=
  opening ++ variablesCollection.toList ++ [Filter.nameQuote]

/-- It does not reach over a quote into an escaped name. -/
theorem not_quotedVariables_before (hbefore : Filter.nameQuote ∉ before) (text : List Char) :
    ¬ quotedVariables <:+: before ++ opening ++ Filter.escapeName text := by
  intro hoccurs
  have hend : ['S'] ++ [Filter.nameQuote] <:+: quotedVariables :=
    ⟨opening ++ "TINKERPOP-GRAPH-VARIABLE".toList, [], rfl⟩
  have htext : before ++ opening ++ Filter.escapeName text =
      (before ++ lead) ++ Filter.nameQuote :: Filter.escapeName text := by
    simp [opening, lead]
  have hlead : Filter.nameQuote ∉ before ++ lead := by
    rw [List.mem_append, not_or]
    exact ⟨hbefore, quote_not_mem_lead⟩
  rw [htext] at hoccurs
  rcases (Text.infix_closed_iff (by decide) hlead).mp (hend.trans hoccurs) with h | h
  · obtain ⟨start, hstart⟩ := h
    have hlast := congrArg List.getLast? hstart
    rw [List.getLast?_append, List.getLast?_append] at hlast
    cases hlast
  · exact Filter.not_infix_escapeName (by decide) text h

/-- It does not start in an escaped name. -/
theorem not_quotedVariables_after (hafter : Filter.nameQuote ∉ after) (text : List Char) :
    ¬ quotedVariables <:+: Filter.escapeName text ++ Filter.nameQuote :: after := by
  intro hoccurs
  have htext : Filter.escapeName text ++ Filter.nameQuote :: after =
      (Filter.escapeName text ++ [Filter.nameQuote]) ++ after := by simp
  rw [htext, Text.infix_append_of_not_mem (by decide) hafter] at hoccurs
  have hopening : opening <:+: Filter.escapeName text := by
    obtain ⟨left, right, heq⟩ := hoccurs
    rcases List.eq_nil_or_concat right with rfl | ⟨right, last, rfl⟩
    · rw [List.append_nil, quotedVariables, ← List.append_assoc] at heq
      have hfront := (List.append_inj' heq rfl).1
      exact ⟨left, variablesCollection.toList, by rw [← hfront]; simp⟩
    · rw [List.concat_eq_append, ← List.append_assoc] at heq
      have hfront := (List.append_inj' heq rfl).1
      exact ⟨left, variablesCollection.toList ++ [Filter.nameQuote] ++ right,
        by rw [← hfront]; simp [quotedVariables]⟩
  have hpair : [' ', Filter.nameQuote] <:+: opening := ⟨['I', 'N'], [], rfl⟩
  exact Filter.not_infix_escapeName (by decide) text (hpair.trans hopening)

-- By induction on the names. Each of them is cut at its separator, and the text behind it at the
-- parenthesis that ends the arm; the occurrence is without both.
/-- It does not occur in the arms of a scan. -/
theorem not_quotedVariables_arms (graph : String) {post : List Char}
    (hpost : Filter.nameQuote ∉ post) :
    ∀ (names : List String) (collection : String) (before : List Char),
      Filter.nameQuote ∉ before →
      ¬ quotedVariables <:+: before ++ opening ++
        (Filter.escapeName (physicalName graph collection).toList ++ Filter.nameQuote ::
          armsText GraphConfig.betweenArms [] post (names.map (physicalName graph)))
  | names, collection, before, hbefore => by
      have hname : Filter.escapeName (physicalName graph collection).toList =
          Filter.escapeName graph.toList ++ '_' :: Filter.escapeName collection.toList := by
        rw [physicalName, toList_join, Filter.escapeName_append]
        rfl
      have hcut : ∀ rest : List Char, before ++ opening ++
          (Filter.escapeName (physicalName graph collection).toList ++ Filter.nameQuote :: rest) =
          (before ++ opening ++ Filter.escapeName graph.toList) ++
            '_' :: (Filter.escapeName collection.toList ++ Filter.nameQuote :: rest) := by
        intro rest
        rw [hname]
        simp
      rw [hcut, Text.infix_fence (by decide), not_or]
      refine ⟨not_quotedVariables_before hbefore _, ?_⟩
      cases names with
      | nil => exact not_quotedVariables_after hpost _
      | cons name names =>
          have hbetween : ∀ rest : List Char,
              Filter.escapeName collection.toList ++ Filter.nameQuote ::
                (GraphConfig.betweenArms ++ opening ++ rest) =
              (Filter.escapeName collection.toList ++ Filter.nameQuote :: " RETURN x".toList) ++
                ')' :: (",(FOR x ".toList ++ opening ++ rest) := by
            intro rest
            have hsplit : GraphConfig.betweenArms =
              " RETURN x".toList ++ ')' :: ",(FOR x ".toList := rfl
            rw [hsplit]
            simp
          rw [List.map_cons, armsText, hbetween, Text.infix_fence (by decide), not_or]
          exact ⟨not_quotedVariables_after (by decide) _,
            not_quotedVariables_arms graph hpost names name _ (by decide)⟩

end Store

namespace GraphConfig

open Store

variable {config : GraphConfig} {kind : ElementKind} {collections : List String} {query : Query}

/-- It does not occur in a scan without a filter. -/
theorem not_quotedVariables_scan (config : GraphConfig) (hne : collections ≠ []) :
    ¬ quotedVariables <:+: Piece.write (config.scanPieces .empty collections) := by
  have hclause : (Filter.empty.clause "x").toList = [] := rfl
  rcases collections with _ | ⟨first, _ | ⟨second, collections⟩⟩
  · exact absurd rfl hne
  · have hpost : Filter.nameQuote ∉ " RETURN x".toList := by decide
    have hone := not_quotedVariables_arms config.graph hpost [] first "FOR x ".toList (by decide)
    rw [scanPieces, write_armPieces, hclause]
    exact hone
  · have hpost : Filter.nameQuote ∉ " RETURN x)".toList ++ ") RETURN d".toList := by decide
    have hmany := not_quotedVariables_arms config.graph hpost (second :: collections) first
      "FOR d IN UNION((FOR x ".toList (by decide)
    rw [write_scanPieces_union, write_joined_arms, hclause]
    exact hmany

/-- The collections that the store reads from the scan of all elements of a kind; none if it takes
the scan for another query. -/
def readCollections (config : GraphConfig) (kind : ElementKind) : List String :=
  match config.scanQuery kind [] .empty (config.collections kind) with
  | .ok query =>
      if Text.contains query.text fetchMark || Text.contains query.text neighborMark then []
      else readNames query.text.toList
  | .error _ => []

/-- The collection of the variables is not read. -/
theorem variablesCollection_not_mem_readCollections (config : GraphConfig) (kind : ElementKind) :
    variablesCollection ∉ config.readCollections kind := by
  intro hmem
  unfold readCollections at hmem
  split at hmem
  · next query hquery =>
    split at hmem
    · cases hmem
    · have hne : (config.collections kind).members ≠ [] := by
        intro hnil
        rw [hnil] at hquery
        cases hquery
      obtain ⟨other, hother, -, htext⟩ := exists_scanQuery hne
      obtain rfl : query = other := Except.ok.inj (hquery.symm.trans hother)
      have hoccurs := infix_of_mem_readNames hmem
      rw [htext] at hoccurs
      exact not_quotedVariables_scan config hne hoccurs
  · cases hmem

/-- The collections of a legible scan are read. -/
theorem readCollections_of_legible (h : Legible config .empty (config.collections kind)) :
    config.readCollections kind =
      (config.collections kind).members.map config.physicalCollection := by
  by_cases hne : (config.collections kind).members = []
  · rw [readCollections, hne]
    rfl
  obtain ⟨query, hquery, -, htext⟩ := exists_scanQuery hne
  obtain ⟨hfetch, hneighbor, hnames⟩ := (legible_iff hne htext).mp h
  unfold readCollections
  rw [hquery]
  dsimp only
  rw [hfetch, hneighbor, ← hnames]
  rfl

/-- The documents of the collections that are read. -/
def readDocuments (config : GraphConfig) (kind : ElementKind) (s : Store) : List Json :=
  (config.readCollections kind).flatMap fun name => Entries.values (s.documents name)

/-- The scan of all elements of a kind is answered with the documents of the collections that are
read, or it fails and none are. -/
theorem answer_scan (hquery : config.scanQuery kind [] .empty (config.collections kind) = .ok query)
    {s : Store} (hs : s.Unanswered query) :
    s.answer query = .ok (config.readDocuments kind s) ∨
      config.readCollections kind = [] ∧ ∃ e, s.answer query = .error e := by
  have hne : (config.collections kind).members ≠ [] := by
    intro hnil
    rw [hnil] at hquery
    cases hquery
  obtain ⟨other, hother, hbindings, -⟩ := exists_scanQuery hne
  obtain rfl : query = other := Except.ok.inj (hquery.symm.trans hother)
  have hread : config.readCollections kind =
      if Text.contains query.text fetchMark || Text.contains query.text neighborMark then []
      else readNames query.text.toList := by
    unfold readCollections
    rw [hquery]
  cases hfetch : Text.contains query.text fetchMark with
  | true =>
      refine .inr ⟨by rw [hread, hfetch]; rfl, ?_⟩
      rw [answer_of_fetchMark hs hfetch, hbindings]
      exact ⟨_, rfl⟩
  | false =>
      cases hneighbor : Text.contains query.text neighborMark with
      | true =>
          refine .inr ⟨by rw [hread, hneighbor, Bool.or_true]; rfl, ?_⟩
          rw [answer_of_neighborMark hs hfetch hneighbor, neighborhood, hbindings]
          exact ⟨_, rfl⟩
      | false =>
          rw [hfetch, hneighbor, Bool.or_self, if_neg Bool.false_ne_true] at hread
          rw [answer_of_unmarked hs hfetch hneighbor, readDocuments, hread]
          by_cases hnames : readNames query.text.toList = []
          · exact .inr ⟨hnames, _, scan_of_readNames_eq_nil hnames⟩
          · exact .inl (scan_of_readNames hnames)

end GraphConfig
end Pushdown
