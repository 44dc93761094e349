import Pushdown.Proofs.Store.Answers
import Pushdown.Proofs.Store.Openings

/-!
# Answers to scans

The store finds the collections of a scan in its text, where names and literals stand too. A
scan is legible when they do not look like marks or openings; then it is answered by the
documents of its collections, and otherwise some store answers it in another way.

## Results

* `GraphConfig.exists_scanQuery`: the text of a scan is written from pieces;
* `GraphConfig.contains_scan_iff`: what occurs in a scan;
* `GraphConfig.readNames_scan_iff`: when the collections of a scan are read back;
* `GraphConfig.returns_scanned_of_legible`, `GraphConfig.exists_not_returns_scanned`: the answer
  to a scan.
-/

namespace Pushdown

open Store

namespace GraphConfig

variable {config : GraphConfig} {kind : ElementKind} {filter : Filter} {collections : List String}

/-- The pieces of the scan of one collection. -/
def armPieces (config : GraphConfig) (filter : Filter) (collection : String) : List Piece :=
  .plain "FOR x IN " :: .name (config.physicalCollection collection) ::
    filter.clausePieces "x" ++ [.plain " RETURN x"]

/-- The pieces of a scan of several collections. -/
def scanPieces (config : GraphConfig) (filter : Filter) : List String → List Piece
  | [collection] => config.armPieces filter collection
  | collections =>
      .plain "FOR d IN UNION(" ::
        Piece.joined "," (collections.map fun collection =>
          .plain "(" :: config.armPieces filter collection ++ [.plain ")"]) ++
        [.plain ") RETURN d"]

theorem collectionScan_eq_pieces (collection : String) :
    (config.collectionScan filter collection).toList =
      Piece.write (config.armPieces filter collection) := by
  simp only [collectionScan, String.toList_append, Filter.clause_eq_pieces]
  simp [armPieces, Piece.write, Piece.text]

/-- A scan binds nothing, and its text is written from pieces. -/
theorem exists_scanQuery (hne : collections ≠ []) :
    ∃ query, config.scanQuery kind [] filter collections = .ok query ∧ query.bindings = [] ∧
      query.text.toList = Piece.write (config.scanPieces filter collections) := by
  unfold scanQuery
  rw [if_neg (by simpa using hne), if_pos List.isEmpty_nil]
  rcases collections with _ | ⟨first, _ | ⟨second, collections⟩⟩
  · exact absurd rfl hne
  · exact ⟨_, rfl, rfl, collectionScan_eq_pieces first⟩
  · refine ⟨_, rfl, rfl, ?_⟩
    have harms : ((first :: second :: collections).map fun c =>
          "(" ++ config.collectionScan filter c ++ ")").map String.toList =
        ((first :: second :: collections).map fun c =>
          .plain "(" :: config.armPieces filter c ++ [.plain ")"]).map Piece.write := by
      rw [List.map_map, List.map_map]
      refine List.map_congr_left fun c _ => ?_
      simp [collectionScan_eq_pieces, Piece.write, Piece.text]
    rw [scanPieces, Piece.write_append, Piece.write_plain_cons, Piece.write_joined, ← harms,
      ← String.toList_intercalate]
    · simp [Piece.write, Piece.text]
    · simp

/-- The texts that a scan quotes: the names of its collections, and those of the filter. -/
def scanTexts (config : GraphConfig) (filter : Filter) (collections : List String) : List String :=
  collections.map config.physicalCollection ++ Piece.quotedTexts (filter.clausePieces "x")

theorem mem_quotedTexts_armPieces {text collection : String} :
    text ∈ Piece.quotedTexts (config.armPieces filter collection) ↔
      text = config.physicalCollection collection ∨
        text ∈ Piece.quotedTexts (filter.clausePieces "x") := by
  simp [armPieces]

theorem mem_quotedTexts_scanPieces (hne : collections ≠ []) {text : String} :
    text ∈ Piece.quotedTexts (config.scanPieces filter collections) ↔
      text ∈ config.scanTexts filter collections := by
  have harms : text ∈ config.scanTexts filter collections ↔
      ∃ c ∈ collections, text ∈ Piece.quotedTexts (config.armPieces filter c) := by
    simp only [mem_quotedTexts_armPieces, scanTexts, List.mem_append, List.mem_map]
    constructor
    · rintro (⟨c, hc, rfl⟩ | h)
      · exact ⟨c, hc, .inl rfl⟩
      · obtain ⟨c, rest, rfl⟩ := List.exists_cons_of_ne_nil hne
        exact ⟨c, List.mem_cons_self, .inr h⟩
    · rintro ⟨c, hc, rfl | h⟩
      · exact .inl ⟨c, hc, rfl⟩
      · exact .inr h
  rw [harms]
  unfold scanPieces
  split
  · simp
  · rw [Piece.quotedTexts_append, Piece.quotedTexts_plain_cons, List.mem_append,
      Piece.mem_quotedTexts_joined]
    simp

theorem spelled_armPieces (collection : String) :
    Piece.Spelled fixedLetters (config.armPieces filter collection) := by
  rw [armPieces, Piece.spelled_append_iff, Piece.spelled_plain_cons_iff,
    Piece.spelled_name_cons_iff]
  exact ⟨⟨by decide, filter.spelled_clausePieces "x"⟩, Piece.spelled_fixed (by decide)⟩

theorem spelled_scanPieces : Piece.Spelled fixedLetters (config.scanPieces filter collections) := by
  unfold scanPieces
  split
  · exact spelled_armPieces _
  · rw [Piece.spelled_append_iff, Piece.spelled_plain_cons_iff]
    refine ⟨⟨by decide, Piece.spelled_joined (by decide) ?_⟩, Piece.spelled_fixed (by decide)⟩
    rw [List.forall_mem_map]
    intro collection _
    rw [Piece.spelled_append_iff, Piece.spelled_plain_cons_iff]
    exact ⟨⟨by decide, spelled_armPieces collection⟩, Piece.spelled_fixed (by decide)⟩

/-- The marks of other queries occur in a scan where it quotes them. -/
theorem contains_scan_iff (hne : collections ≠ []) {text mark : String}
    (htext : text.toList = Piece.write (config.scanPieces filter collections))
    (hmark : mark = fetchMark ∨ mark = neighborMark) :
    Text.contains text mark = true ↔
      ∃ quoted ∈ config.scanTexts filter collections, Text.contains quoted mark = true := by
  have hbare : Piece.Bare mark.toList := by
    rcases hmark with rfl | rfl
    · exact ⟨by decide, by decide, by decide⟩
    · exact ⟨by decide, by decide, by decide⟩
  have hletter : ∃ d ∈ mark.toList, d ∉ fixedLetters := by
    rcases hmark with rfl | rfl
    · exact ⟨'@', by decide, by decide⟩
    · exact ⟨'@', by decide, by decide⟩
  obtain ⟨d, hd, hletter⟩ := hletter
  simp only [Text.contains_iff, htext, Piece.infix_write_iff hbare hd
    (spelled_scanPieces.without hletter), mem_quotedTexts_scanPieces hne]

/-- What stands between the names of two arms, up to the opening of the second. -/
def betweenArms : List Char := " RETURN x),(FOR x ".toList

/-- A name behind what starts an opening. -/
theorem write_armPieces (collection : String) :
    Piece.write (config.armPieces filter collection) =
      "FOR x ".toList ++ opening ++
        (Filter.escapeName (config.physicalCollection collection).toList ++
          Filter.nameQuote :: ((filter.clause "x").toList ++ " RETURN x".toList)) := by
  rw [armPieces, List.cons_append, List.cons_append, Piece.write_plain_cons,
    Piece.write_name_cons, Piece.write_append, ← Filter.clause_eq_pieces]
  simp [Piece.write, Piece.text, opening]

/-- The text of the arms of a scan, from the first on. -/
theorem write_joined_arms (post : List Char) :
    ∀ (collections : List String) (first : String),
      Piece.write (Piece.joined "," ((first :: collections).map fun collection =>
          .plain "(" :: config.armPieces filter collection ++ [.plain ")"])) ++ post =
        "(FOR x ".toList ++ opening ++
          (Filter.escapeName (config.physicalCollection first).toList ++
            Filter.nameQuote :: ((filter.clause "x").toList ++
              armsText betweenArms (filter.clause "x").toList (" RETURN x)".toList ++ post)
                (collections.map config.physicalCollection)))
  | [], first => by
      simp only [List.map_cons, List.map_nil, Piece.joined, List.intercalate_singleton,
        List.cons_append, Piece.write_plain_cons, Piece.write_append, write_armPieces, armsText]
      simp [Piece.write, Piece.text]
  | second :: collections, first => by
      have hsecond := write_joined_arms post collections second
      have hbetween : betweenArms = " RETURN x".toList ++ ")".toList ++ ",".toList ++
        "(FOR x ".toList := rfl
      rw [List.map_cons, Piece.joined] at hsecond ⊢
      rw [List.map_cons, List.intercalate_cons_cons, Piece.write_append, Piece.write_append,
        List.append_assoc, hsecond, List.map_cons, armsText, List.cons_append,
        Piece.write_plain_cons, Piece.write_append, write_armPieces, hbetween]
      simp [Piece.write, Piece.text]

/-- A scan of several collections is the union of its arms. -/
theorem write_scanPieces_union (first second : String) (collections : List String) :
    Piece.write (config.scanPieces filter (first :: second :: collections)) =
      "FOR d IN UNION(".toList ++ (Piece.write (Piece.joined ","
        ((first :: second :: collections).map fun collection =>
          .plain "(" :: config.armPieces filter collection ++ [.plain ")"])) ++
        ") RETURN d".toList) := by
  rw [scanPieces, Piece.write_append, Piece.write_plain_cons]
  · simp [Piece.write, Piece.text]
  · simp

/-- The names of a scan are read back if they are plain and the clause opens no other name, or
the scan is of one collection and the name that is opened is not closed. -/
theorem readNames_scan_iff (hne : collections ≠ []) :
    readNames (Piece.write (config.scanPieces filter collections)) =
        collections.map config.physicalCollection ↔
      (∀ name ∈ collections.map config.physicalCollection, Filter.PlainName name) ∧
        (opening <:+: (filter.clause "x").toList →
          collections.length = 1 ∧ OpenEnded (filter.clause "x").toList) := by
  rcases collections with _ | ⟨first, _ | ⟨second, collections⟩⟩
  · exact absurd rfl hne
  · -- a scan of one collection is its arm, and no arm follows
    have harms : armsText betweenArms (filter.clause "x").toList " RETURN x".toList [] =
        " RETURN x".toList := rfl
    rw [scanPieces, write_armPieces, ← harms, List.map_cons, List.map_nil,
      readNames_arms_iff _ (no_opening_of_no_quote (by decide)) (by decide) (by decide)]
    simp
  · have hstart : ∀ rest : List Char,
        "FOR d IN UNION(".toList ++ ("(FOR x ".toList ++ opening ++ rest) =
          "FOR d IN UNION((FOR x ".toList ++ opening ++ rest := fun rest => rfl
    rw [write_scanPieces_union, write_joined_arms, hstart]
    simp only [List.map_cons]
    rw [readNames_arms_iff _ (no_opening_of_no_quote (by decide)) (by decide) (by decide)]
    simp

/-- The documents of several collections, one collection after the other. -/
def scannedDocuments (config : GraphConfig) (collections : List String) (store : Store) :
    List Json :=
  collections.flatMap fun name => Entries.values (store.documents (config.physicalCollection name))

/-- A scan that the store reads as it was meant: what it quotes holds no mark of another query,
the names of its collections are plain, and its filter opens no other name, or opens the last
quote of the scan. -/
structure Legible (config : GraphConfig) (filter : Filter) (collections : List String) : Prop where
  unmarked : ∀ text ∈ config.scanTexts filter collections,
    Text.contains text fetchMark = false ∧ Text.contains text neighborMark = false
  plain : ∀ name ∈ collections, Filter.PlainName (config.physicalCollection name)
  settled : ∀ piece ∈ filter.clausePieces "x", piece.Opens →
    collections.length = 1 ∧ OpenEnded (filter.clause "x").toList

theorem legible_iff (hne : collections ≠ []) {text : String}
    (htext : text.toList = Piece.write (config.scanPieces filter collections)) :
    Legible config filter collections ↔
      Text.contains text fetchMark = false ∧ Text.contains text neighborMark = false ∧
        readNames text.toList = collections.map config.physicalCollection := by
  have hfetch := contains_scan_iff hne htext (.inl rfl)
  have hneighbor := contains_scan_iff hne htext (.inr rfl)
  have hopens := filter.opens_clause_iff "x"
  rw [htext, readNames_scan_iff hne, ← Bool.not_eq_true, ← Bool.not_eq_true, hfetch, hneighbor]
  constructor
  · intro h
    refine ⟨?_, ?_, ?_, ?_⟩
    · rintro ⟨quoted, hquoted, hmark⟩
      exact Bool.eq_false_iff.mp (h.unmarked quoted hquoted).1 hmark
    · rintro ⟨quoted, hquoted, hmark⟩
      exact Bool.eq_false_iff.mp (h.unmarked quoted hquoted).2 hmark
    · rw [List.forall_mem_map]
      exact h.plain
    · intro hopening
      obtain ⟨piece, hpiece, hopen⟩ := hopens.mp hopening
      exact h.settled piece hpiece hopen
  · rintro ⟨hnofetch, hnoneighbor, hplain, hsettled⟩
    rw [List.forall_mem_map] at hplain
    refine ⟨fun text hmem => ⟨?_, ?_⟩, hplain, fun piece hpiece hopen => ?_⟩
    · exact Bool.eq_false_iff.mpr fun hmark => hnofetch ⟨text, hmem, hmark⟩
    · exact Bool.eq_false_iff.mpr fun hmark => hnoneighbor ⟨text, hmem, hmark⟩
    · exact hsettled (hopens.mpr ⟨piece, hpiece, hopen⟩)

end GraphConfig

namespace Store

variable {store : Store} {text : String}

/-- A scan gives the documents of the names that are read. -/
theorem scan_of_readNames (hne : readNames text.toList ≠ []) :
    store.scan text = .ok ((readNames text.toList).flatMap fun name =>
      Entries.values (store.documents name)) := by
  have hnames : scannedNames (text.length + 1) text.toList = readNames text.toList := by
    rw [readNames, String.length_toList]
  rw [scan, hnames]
  split
  · next hnil => exact absurd hnil hne
  · rfl

theorem scan_of_readNames_eq_nil (h : readNames text.toList = []) :
    store.scan text = .error (badQuery ("unsupported query: " ++ text)) := by
  have hnames : scannedNames (text.length + 1) text.toList = readNames text.toList := by
    rw [readNames, String.length_toList]
  rw [scan, hnames, h]

/-- Collections of one document each, which is the name of its collection. -/
def labelCollections : List String → Entries (Entries Json)
  | [] => []
  | name :: names => Entries.insert name [(name, .string name)] (labelCollections names)

/-- A store whose documents tell their collections. -/
def labelled (names : List String) : Store := { empty with collections := labelCollections names }

theorem find?_labelCollections {name : String} :
    ∀ {names : List String}, name ∈ names →
      Entries.find? name (labelCollections names) = some [(name, .string name)]
  | [], h => by cases h
  | first :: names, h => by
      rw [labelCollections]
      by_cases hfirst : name = first
      · rw [hfirst, Entries.find?_insert_self]
      · rw [Entries.find?_insert_of_ne _ _ hfirst]
        exact find?_labelCollections ((List.mem_cons.mp h).resolve_left hfirst)

theorem mem_labelCollections {entry : String × Entries Json} :
    ∀ {names : List String}, entry ∈ labelCollections names →
      ∃ name, entry = (name, [(name, .string name)])
  | [], h => by cases h
  | first :: names, h => by
      rcases Entries.eq_or_mem_of_mem_insert h with rfl | h
      · exact ⟨first, rfl⟩
      · exact mem_labelCollections h

theorem ordered_labelled (names : List String) : (labelled names).Ordered where
  collections := by
    induction names with
    | nil => exact List.Pairwise.nil
    | cons name names ih => exact Entries.ascending_insert ih
  documents := by
    intro entry hentry
    obtain ⟨name, rfl⟩ := mem_labelCollections hentry
    exact List.pairwise_singleton _ _

/-- The documents of a labelled store are the names of their collections. -/
theorem documents_labelled {names : List String} :
    ∀ {found : List String}, (∀ name ∈ found, name ∈ names) →
      (found.flatMap fun name => Entries.values ((labelled names).documents name)) =
        found.map Json.string
  | [], _ => rfl
  | name :: found, h => by
      obtain ⟨hname, hfound⟩ := List.forall_mem_cons.mp h
      have hdocuments : (labelled names).documents name = [(name, .string name)] := by
        rw [documents, labelled, find?_labelCollections hname]
        rfl
      rw [List.flatMap_cons, hdocuments, documents_labelled hfound]
      rfl

end Store

namespace GraphConfig

variable {config : GraphConfig} {kind : ElementKind} {filter : Filter} {collections : List String}
  {query : Query}

/-- A legible scan returns the documents of its collections. -/
theorem returns_scanned_of_legible (hne : collections ≠ [])
    (hquery : config.scanQuery kind [] filter collections = .ok query)
    (h : Legible config filter collections) {store : Store} (hstore : store.Unanswered query) :
    store.Returns query (config.scannedDocuments collections store) := by
  obtain ⟨query', hquery', -, htext⟩ := exists_scanQuery hne
  obtain rfl : query = query' := Except.ok.inj (hquery.symm.trans hquery')
  obtain ⟨hfetch, hneighbor, hnames⟩ := (legible_iff hne htext).mp h
  have hread : readNames query.text.toList ≠ [] := by
    rw [hnames]
    simpa using hne
  rw [returns_iff, answer_of_unmarked hstore hfetch hneighbor, scan_of_readNames hread, hnames,
    List.flatMap_map]
  rfl

/-- A scan that is not legible does not return the documents of its collections on every
store. -/
theorem exists_not_returns_scanned (hne : collections ≠ [])
    (hquery : config.scanQuery kind [] filter collections = .ok query)
    (h : ¬ Legible config filter collections) :
    ∃ store : Store, store.Ordered ∧ store.Unanswered query ∧
      ¬ store.Returns query (config.scannedDocuments collections store) := by
  obtain ⟨query', hquery', hbindings, htext⟩ := exists_scanQuery hne
  obtain rfl : query = query' := Except.ok.inj (hquery.symm.trans hquery')
  rw [legible_iff hne htext] at h
  generalize hread : readNames query.text.toList = read at h
  generalize hnames : collections.map config.physicalCollection = names at h
  have hstore : (labelled (read ++ names)).Unanswered query := rfl
  refine ⟨labelled (read ++ names), ordered_labelled _, hstore, fun hreturns => h ?_⟩
  rw [returns_iff] at hreturns
  have hfetch : Text.contains query.text fetchMark = false := by
    refine Bool.eq_false_iff.mpr fun hmark => ?_
    rw [answer_of_fetchMark hstore hmark, hbindings] at hreturns
    cases hreturns
  have hneighbor : Text.contains query.text neighborMark = false := by
    refine Bool.eq_false_iff.mpr fun hmark => ?_
    rw [answer_of_neighborMark hstore hfetch hmark, neighborhood, hbindings] at hreturns
    cases hreturns
  refine ⟨hfetch, hneighbor, ?_⟩
  rw [answer_of_unmarked hstore hfetch hneighbor] at hreturns
  by_cases hnil : read = []
  · rw [scan_of_readNames_eq_nil (hread.trans hnil)] at hreturns
    cases hreturns
  · -- each document tells its collection, so the same rows come from the same names
    have hscanned : config.scannedDocuments collections (labelled (read ++ names)) =
        names.map Json.string := by
      rw [← documents_labelled fun name hname => List.mem_append_right read hname, ← hnames,
        List.flatMap_map]
      rfl
    rw [scan_of_readNames (hread ▸ hnil), hread,
      documents_labelled fun name hname => List.mem_append_left names hname, hscanned,
      Except.ok.injEq, List.map_inj_right fun _ _ => Json.string.inj] at hreturns
    exact hreturns

end GraphConfig
end Pushdown
