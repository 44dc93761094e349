import Mathlib.Data.List.Nodup
import Pushdown.Proofs.Graph.Rewriting
import Pushdown.Proofs.Graph.Scanning
import Pushdown.Proofs.Plan.Planning

/-!
# Repeated results

A test of ids does not care how often a list names one, and a fetch does: it binds every id of the
list, and a client answers each of them with a row. So a scan into which a list of ids was folded
yields an element as often as the list has the text of its id. An integer and its decimal text are
the same id. A scan that fetches no ids yields no element twice.

## Results

* `Pass.ids_cases`: where the ids of a rewritten scan come from;
* `Graph.sublist_yieldedIds`: yielded elements and accepted rows;
* `GraphConfig.count_boundIds`: how often the document of an id is bound;
* `Graph.nodup_fetched`, `Graph.count_fetched`: what a fetch yields;
* `Graph.yields_as_named`: how often a rewritten traversal yields an element;
* `Graph.not_yields_once`: an element that is yielded twice.
-/

namespace Pushdown

variable {config : GraphConfig}

/-- If one item alone gives a value, the value is given as often as the item is listed. -/
theorem count_filterMap_eq {α β : Type} [DecidableEq α] [DecidableEq β] {f : α → Option β} {a : α}
    {b : β} (ha : f a = some b) (hunique : ∀ other, f other = some b → other = a) (l : List α) :
    (l.filterMap f).count b = l.count a := by
  rw [List.count_filterMap, List.count]
  refine List.countP_congr fun other _ => ?_
  rw [beq_iff_eq, beq_iff_eq]
  constructor
  · exact hunique other
  · rintro rfl
    exact ha

/-- The ids of a scan are those it had, or those of a container that was folded into it. -/
theorem Pass.ids_cases {scan final : Scan} {containers kept : List HasContainer}
    (h : Pass config scan containers final kept) :
    final.kind = scan.kind ∧
      (final.ids = scan.ids ∨ ∃ container ∈ containers, ∃ values, container.key = .id ∧
        container.predicate.namedValues? = some values ∧
        config.namedIds scan.kind values = .ok final.ids) := by
  induction h with
  | done scan => exact ⟨rfl, .inl rfl⟩
  | @took scan next final container containers kept habs _ ih =>
      obtain ⟨hkind, hids⟩ := ih
      have hnext : next.kind = scan.kind := by cases habs <;> rfl
      refine ⟨hkind.trans hnext, ?_⟩
      rw [hnext] at hids
      rcases hids with hsame | ⟨other, hother, hfolded⟩
      · rw [hsame]
        cases habs with
        | folded hkey _ hnamed hids =>
            exact .inr ⟨container, List.mem_cons_self, _, hkey, hnamed, hids⟩
        | narrowed _ _ _ => exact .inl rfl
        | taken _ _ _ => exact .inl rfl
      · exact .inr ⟨other, List.mem_cons_of_mem _ hother, hfolded⟩
  | left _ _ ih =>
      obtain ⟨hkind, hids⟩ := ih
      refine ⟨hkind, hids.imp_right ?_⟩
      rintro ⟨other, hother, hfolded⟩
      exact ⟨other, List.mem_cons_of_mem _ hother, hfolded⟩
  | labelled labels _ ih => exact ih

/-- A document that holds the id of its place. -/
def StoredDocument.Identified (d : StoredDocument) : Prop :=
  Entries.find? "_id" d.fields = some (.string d.id)

/-- A client answers the query of a scan with one row for every bound id that is stored, or with
each document of the collections once. -/
def ServesOnce {σ : Type} [Client σ] (config : GraphConfig) (documents : List StoredDocument)
    (scan : Scan) (s : σ) : Prop :=
  ∀ plan, config.planScan scan = .ok plan →
    ∃ (rows : List Json) (s' : σ), Client.query plan.query s = (.ok (rows.map .ok), s') ∧
      (scan.ids = [] → rows.Perm ((documents.filter fun d =>
        scan.collections.members.any fun name =>
          d.collection = config.physicalCollection name).map StoredDocument.json)) ∧
      ∀ bound, Entries.find? "ids" plan.query.bindings = some (Json.strings bound) →
        rows.Perm (bound.filterMap fun id =>
          (documents.find? fun d => d.id = id).map StoredDocument.json)

/-- The identities of the elements that are yielded. -/
def yieldedIds (items : List (Result Element)) : List ElementId :=
  items.filterMap fun item => item.toOption.map Element.id

/-- The identity of the element of a row that is accepted. -/
def acceptedId (accept : Json → Result (Option Element)) (row : Json) : Option ElementId :=
  (accept row).toOption.join.map Element.id

namespace Graph

open ElementIteration

variable {it : ElementIteration} {row : Json} {id : ElementId}

/-- What is yielded are the elements of accepted rows, and all of them if there is no error. -/
theorem sublist_yieldedIds (accept : Json → Result (Option Element)) (rows : List Json) :
    (yieldedIds (itemsOf accept (rows.map .ok))).Sublist (rows.filterMap (acceptedId accept)) ∧
      ((∀ e, .error e ∉ itemsOf accept (rows.map .ok)) →
        yieldedIds (itemsOf accept (rows.map .ok)) = rows.filterMap (acceptedId accept)) := by
  induction rows with
  | nil => exact ⟨.slnil, fun _ => rfl⟩
  | cons row rows ih =>
      obtain ⟨hsublist, heq⟩ := ih
      rw [List.map_cons, itemsOf]
      cases hrow : accept row with
      | error e =>
          refine ⟨List.nil_sublist _, fun hnone => ?_⟩
          exact absurd List.mem_cons_self (hnone e)
      | ok found =>
          cases found with
          | none =>
              have hskip : acceptedId accept row = none := by rw [acceptedId, hrow]; rfl
              rw [List.filterMap_cons_none hskip]
              exact ⟨hsublist, heq⟩
          | some element =>
              have hkeep : acceptedId accept row = some element.id := by
                rw [acceptedId, hrow]
                rfl
              rw [List.filterMap_cons_some hkeep]
              refine ⟨hsublist.cons_cons element.id, fun hnone => ?_⟩
              exact congrArg (element.id :: ·)
                (heq fun e he => hnone e (List.mem_cons_of_mem _ he))

/-- A row whose element is accepted holds the id of its document. -/
theorem of_acceptedId (h : acceptedId it.accept row = some id) :
    ∃ key text, KeyedIn it.config id key ∧ id.documentId? = some text ∧
      row.stringField? "_id" = some text := by
  obtain ⟨element, hjoin, rfl⟩ := Option.map_eq_some_iff.mp h
  have haccepted : it.accept row = .ok (some element) := by
    cases hrow : it.accept row with
    | error e => rw [hrow] at hjoin; cases hjoin
    | ok found => rw [hrow] at hjoin; exact congrArg Except.ok hjoin
  obtain ⟨hdecoded, -⟩ := accept_eq_some_iff.mp haccepted
  cases row with
  | object fields =>
      obtain ⟨⟨text, htext, hparse⟩, -⟩ := GraphConfig.of_decodeElementRow hdecoded
      obtain ⟨key, hkeyed, hdocument, -⟩ := GraphConfig.keyedIn_of_parseDocumentId hparse
      refine ⟨key, text, hkeyed, hdocument, ?_⟩
      rw [Json.stringField?, Json.field?, htext]
      rfl
  | null | bool | int | double | string | array => cases hdecoded

/-- Rows of different documents yield no element twice. -/
theorem nodup_accepted {rows : List Json}
    (h : rows.Pairwise fun row other => row.stringField? "_id" ≠ other.stringField? "_id") :
    (rows.filterMap (acceptedId it.accept)).Nodup := by
  refine List.Pairwise.filterMap _ (fun row other hne id hid same hsame heq => ?_) h
  obtain ⟨-, text, -, hdocument, hrow⟩ := of_acceptedId hid
  obtain ⟨-, text', -, hdocument', hother⟩ := of_acceptedId hsame
  rw [← heq, hdocument, Option.some.injEq] at hdocument'
  exact hne (by rw [hrow, hother, hdocument'])

/-- Some of the documents of a store yield no element twice. -/
theorem nodup_scanned {documents : List StoredDocument}
    (hidentified : ∀ d ∈ documents, d.Identified)
    (hdistinct : (documents.map StoredDocument.id).Nodup) (asked : StoredDocument → Bool) :
    (((documents.filter asked).map StoredDocument.json).filterMap
      (acceptedId it.accept)).Nodup := by
  refine nodup_accepted (List.pairwise_map.mpr ?_)
  refine (List.pairwise_map.mp hdistinct).filter asked |>.imp_of_mem ?_
  intro d other hd hother hne heq
  have hfield : ∀ d ∈ documents.filter asked, d.json.stringField? "_id" = some d.id := by
    intro d hd
    rw [Json.stringField?, StoredDocument.json, Json.field?,
      hidentified d (List.mem_of_mem_filter hd)]
    rfl
  rw [hfield d hd, hfield other hother, Option.some.injEq] at heq
  exact hne heq

end Graph

namespace GraphConfig

variable {kind : ElementKind} {collections : List String}

theorem of_boundId? {text document : String}
    (h : config.boundId? kind collections text = some document) :
    ∃ id key, KeyedIn config id key ∧ config.encodeId id = some text ∧
      id.documentId? = some document := by
  obtain ⟨id, hparsed, hdocument, -⟩ := boundId?_eq_some_iff.mp h
  obtain ⟨key, hkeyed, -, -, hencode⟩ := parseId_eq_ok_iff.mp hparsed
  exact ⟨id, key, hkeyed, hencode, hdocument⟩

/-- A document is bound for one id alone. -/
theorem eq_of_boundId? {text other document : String}
    (h : config.boundId? kind collections text = some document)
    (h' : config.boundId? kind collections other = some document) : text = other := by
  obtain ⟨id, key, hkeyed, hencode, hdocument⟩ := of_boundId? h
  obtain ⟨id', key', hkeyed', hencode', hdocument'⟩ := of_boundId? h'
  obtain rfl := ElementId.eq_of_documentId? hkeyed hkeyed' hdocument hdocument'
  exact Option.some.inj (hencode.symm.trans hencode')

/-- A document is bound as often as the text of its id is listed. -/
theorem count_boundIds {ids bound : List String} {text document : String}
    (h : config.documentIds kind collections ids = .ok bound)
    (htext : config.boundId? kind collections text = some document) :
    bound.count document = ids.count text := by
  rw [documentIds_eq_filterMap h]
  exact count_filterMap_eq htext (fun _ hother => eq_of_boundId? hother htext) ids

theorem nodup_boundIds {ids bound : List String}
    (h : config.documentIds kind collections ids = .ok bound) (hids : ids.Nodup) :
    bound.Nodup := by
  rw [documentIds_eq_filterMap h]
  exact hids.filterMap fun _ _ _ hone hother => eq_of_boundId? hone hother

end GraphConfig

namespace Graph

open ElementIteration

variable {documents : List StoredDocument} {it : ElementIteration}

/-- The identity of the element that is yielded for a bound id. -/
def fetchedId (documents : List StoredDocument) (accept : Json → Result (Option Element))
    (document : String) : Option ElementId :=
  ((documents.find? fun d => d.id = document).map StoredDocument.json).bind (acceptedId accept)

/-- The element of a bound id has its document there. -/
theorem of_fetchedId (hidentified : ∀ d ∈ documents, d.Identified) {document : String}
    {id : ElementId} (h : fetchedId documents it.accept document = some id) :
    ∃ key, KeyedIn it.config id key ∧ id.documentId? = some document := by
  obtain ⟨row, hrow, haccepted⟩ := Option.bind_eq_some_iff.mp h
  obtain ⟨d, hfound, rfl⟩ := Option.map_eq_some_iff.mp hrow
  obtain ⟨key, text, hkeyed, hdocument, hfield⟩ := of_acceptedId haccepted
  have hplace : d.json.stringField? "_id" = some d.id := by
    rw [Json.stringField?, StoredDocument.json, Json.field?,
      hidentified d (List.mem_of_find?_eq_some hfound)]
    rfl
  have hid : d.id = document := by simpa using List.find?_some hfound
  rw [hplace, hid] at hfield
  exact ⟨key, hkeyed, hdocument.trans hfield.symm⟩

theorem eq_of_fetchedId (hidentified : ∀ d ∈ documents, d.Identified) {document other : String}
    {id : ElementId} (h : fetchedId documents it.accept document = some id)
    (h' : fetchedId documents it.accept other = some id) : document = other := by
  obtain ⟨-, -, hdocument⟩ := of_fetchedId hidentified h
  obtain ⟨-, -, hdocument'⟩ := of_fetchedId hidentified h'
  exact Option.some.inj (hdocument.symm.trans hdocument')

/-- A fetch of different ids yields no element twice. -/
theorem nodup_fetched (hidentified : ∀ d ∈ documents, d.Identified) {kind : ElementKind}
    {collections : List String} {ids bound : List String}
    (hbound : config.documentIds kind collections ids = .ok bound) (hids : ids.Nodup) :
    (bound.filterMap (fetchedId documents it.accept)).Nodup :=
  (GraphConfig.nodup_boundIds hbound hids).filterMap
    fun _ _ _ hone hother => eq_of_fetchedId hidentified hone hother

/-- A fetch yields an element as often as the text of its id is listed. -/
theorem count_fetched (hidentified : ∀ d ∈ documents, d.Identified) {kind : ElementKind}
    {collections : List String} {ids bound : List String} {id : ElementId}
    (hbound : it.config.documentIds kind collections ids = .ok bound)
    (hid : id ∈ bound.filterMap (fetchedId documents it.accept)) :
    ∃ text, it.config.encodeId id = some text ∧
      (bound.filterMap (fetchedId documents it.accept)).count id = ids.count text := by
  obtain ⟨document, hdocument, hfetched⟩ := List.mem_filterMap.mp hid
  have hlisted := hdocument
  rw [GraphConfig.documentIds_eq_filterMap hbound] at hlisted
  obtain ⟨text, -, htext⟩ := List.mem_filterMap.mp hlisted
  obtain ⟨named, key, hkeyed, hencode, hnamed⟩ := GraphConfig.of_boundId? htext
  obtain ⟨key', hkeyed', hown⟩ := of_fetchedId hidentified hfetched
  obtain rfl := ElementId.eq_of_documentId? hkeyed hkeyed' hnamed hown
  refine ⟨text, hencode, ?_⟩
  rw [count_filterMap_eq hfetched (fun _ hother => eq_of_fetchedId hidentified hother hfetched),
    GraphConfig.count_boundIds hbound htext]

/-- What a client that serves a scan once lets it yield. -/
theorem accepted_of_rows (it : ElementIteration) (hidentified : ∀ d ∈ documents, d.Identified)
    (hdistinct : (documents.map StoredDocument.id).Nodup) {scan : Scan} {plan : ScanPlan}
    (hplan : it.config.planScan scan = .ok plan) {rows : List Json}
    (hscanned : scan.ids = [] → rows.Perm ((documents.filter fun d =>
      scan.collections.members.any fun name =>
        d.collection = it.config.physicalCollection name).map StoredDocument.json))
    (hfetched : ∀ bound, Entries.find? "ids" plan.query.bindings = some (Json.strings bound) →
      rows.Perm (bound.filterMap fun id =>
        (documents.find? fun d => d.id = id).map StoredDocument.json)) :
    (scan.ids.Nodup → (rows.filterMap (acceptedId it.accept)).Nodup) ∧
      ∀ id ∈ rows.filterMap (acceptedId it.accept), ∃ text, it.config.encodeId id = some text ∧
        (rows.filterMap (acceptedId it.accept)).count id =
          if scan.ids = [] then 1 else scan.ids.count text := by
  by_cases hids : scan.ids = []
  · have hnodup : (rows.filterMap (acceptedId it.accept)).Nodup :=
      ((hscanned hids).filterMap _).nodup_iff.mpr (nodup_scanned hidentified hdistinct _)
    refine ⟨fun _ => hnodup, fun id hid => ?_⟩
    obtain ⟨row, -, haccepted⟩ := List.mem_filterMap.mp hid
    obtain ⟨key, -, hkeyed, -, -⟩ := of_acceptedId haccepted
    obtain ⟨text, htext⟩ : ∃ text, it.config.encodeId id = some text :=
      GraphConfig.encodeId_of_key hkeyed.hasKey
    exact ⟨text, htext, by rw [if_pos hids, List.count_eq_one_of_mem hnodup hid]⟩
  · obtain ⟨-, filter, hquery⟩ := GraphConfig.of_planScan hplan
    obtain ⟨bound, hbound, hbindings⟩ := GraphConfig.bindings_of_scanQuery hids hquery
    have hperm : (rows.filterMap (acceptedId it.accept)).Perm
        (bound.filterMap (fetchedId documents it.accept)) := by
      have hrows := (hfetched bound (by rw [hbindings]; rfl)).filterMap (acceptedId it.accept)
      rwa [List.filterMap_filterMap] at hrows
    refine ⟨fun hnodup => ?_, fun id hid => ?_⟩
    · exact hperm.nodup_iff.mpr (nodup_fetched hidentified hbound hnodup)
    · rw [hperm.mem_iff] at hid
      obtain ⟨text, htext, hcount⟩ := count_fetched hidentified hbound hid
      exact ⟨text, htext, by rw [hperm.count_eq, hcount, if_neg hids]⟩

variable {σ : Type} [Client σ]

/-- A selection without ids is rewritten to a scan whose ids, if it has any, are those that one
container names. The scan can be run, and over a client that serves it once it yields no element
twice if no id is listed twice. If it meets no error, it yields an element as often as the text of
its id is listed, and once if there are no ids. -/
theorem yields_as_named (hidentified : ∀ d ∈ documents, d.Identified)
    (hdistinct : (documents.map StoredDocument.id).Nodup) {kind : ElementKind}
    {labels : List String} {steps pushed : List Step}
    (hsteps : ∀ step ∈ steps, step.isFilter = true)
    (hpush : config.pushDown (.select kind [] labels :: steps) = .ok pushed) (s : σ) :
    ∃ scan rest, pushed = .scan scan :: rest ∧
      (scan.ids = [] ∨ ∃ container ∈ hasContainers steps, ∃ values, container.key = .id ∧
        container.predicate.namedValues? = some values ∧
        config.namedIds kind values = .ok scan.ids) ∧
      (ServesOnce config documents scan s →
        ∃ it, Graph.scan ⟨config⟩ scan = .ok it ∧
          (scan.ids.Nodup → (yieldedIds (it.drain s).1).Nodup) ∧
          ((∀ e, .error e ∉ (it.drain s).1) → ∀ id ∈ yieldedIds (it.drain s).1,
            ∃ text, config.encodeId id = some text ∧
              (yieldedIds (it.drain s).1).count id =
                if scan.ids = [] then 1 else scan.ids.count text)) := by
  obtain ⟨-, scan, rest, kept, rfl, hpass, -⟩ := pass_of_pushDown hpush
  have hplannable := GraphConfig.plannable_of_pushDown (fun given h => by cases h) hpush
  rw [(takeWhile_isFilter hsteps).1] at hpass
  refine ⟨scan, rest, rfl, hpass.ids_cases.2, fun hserves => ?_⟩
  by_cases hempty : scan.collections = .empty
  · have hscan : Graph.scan ⟨config⟩ scan = .ok ⟨config, [], .done⟩ := by
      rw [Graph.scan, hempty]
      rfl
    have hitems : (ElementIteration.drain ⟨config, [], .done⟩ s).1 = [] := by
      rw [drain_of_done rfl]
    refine ⟨_, hscan, ?_, ?_⟩
    · rw [hitems]
      exact fun _ => List.nodup_nil
    · rw [hitems]
      exact fun _ id hid => absurd hid List.not_mem_nil
  · obtain ⟨plan, hplan, -, -⟩ := GraphConfig.plan_total hplannable hempty
    obtain ⟨rows, s', hquery, hscanned, hfetched⟩ := hserves plan hplan
    let it : ElementIteration := iteration ⟨config⟩ plan.residual plan.query
    have hscan : Graph.scan ⟨config⟩ scan = .ok it := by
      rw [Graph.scan, if_neg (by simpa using hempty), hplan]
      rfl
    have hitems : (it.drain s).1 = itemsOf it.accept (rows.map .ok) := by
      rw [drain_eq rfl hquery]
    obtain ⟨hsublist, heq⟩ := sublist_yieldedIds it.accept rows
    obtain ⟨hnodup, hcount⟩ := accepted_of_rows it hidentified hdistinct hplan hscanned hfetched
    rw [← hitems] at hsublist heq
    refine ⟨it, hscan, fun hids => (hnodup hids).sublist hsublist, fun hnone id hid => ?_⟩
    rw [heq hnone] at hid ⊢
    exact hcount id hid

open StoredDocument

/-- The filter step that names ids of vertices. -/
def namedStep (names : List String) : Step :=
  .has [⟨.id, .compare "within" (.list (names.map .string))⟩] []

theorem identified_household : ∀ d ∈ [alice, rex], d.Identified := by
  intro d hd
  rcases (List.mem_cons.mp hd).imp_right List.mem_singleton.mp with rfl | rfl
  · exact rfl
  · exact rfl

theorem distinct_household : ([alice, rex].map StoredDocument.id).Nodup := by decide

/-- A fetch of vertices of the household is served once if the answer has a row for every id. -/
theorem servesOnce_household {ids bound : List String} {rows : List Json} {query : Query}
    (hids : ids ≠ [])
    (hplanned : GraphConfig.standard.planScan (GraphConfig.standard.startScan .vertex ids []) =
      .ok ⟨query, .none, [], []⟩)
    (hbindings : query.bindings = [("ids", Json.strings bound)])
    (hanswered : (Store.household.query query).1 = .ok (rows.map .ok))
    (hrows : rows = bound.filterMap fun id =>
      ([alice, rex].find? fun d => d.id = id).map StoredDocument.json) :
    ServesOnce GraphConfig.standard [alice, rex] (GraphConfig.standard.startScan .vertex ids [])
      Store.household := by
  intro plan hplan
  rw [hplanned] at hplan
  cases hplan
  refine ⟨rows, _, Prod.ext hanswered rfl, fun h => absurd h hids, fun other hother => ?_⟩
  rw [hbindings] at hother
  obtain rfl := Json.strings_inj (Option.some.inj hother)
  rw [hrows]

/-- Alice and Rex are named, and neither of them is yielded twice. -/
theorem yields_as_named_household :
    GraphConfig.standard.pushDown [.select .vertex [] [], namedStep ["alice", "rex"]] =
        .ok [.scan (GraphConfig.standard.startScan .vertex ["alice", "rex"] [])] ∧
      ∃ it, Graph.scan ⟨GraphConfig.standard⟩
          (GraphConfig.standard.startScan .vertex ["alice", "rex"] []) = .ok it ∧
        (yieldedIds (it.drain Store.household).1).Nodup := by
  have hpush : GraphConfig.standard.pushDown
      [.select .vertex [] [], namedStep ["alice", "rex"]] =
        .ok [.scan (GraphConfig.standard.startScan .vertex ["alice", "rex"] [])] := rfl
  have hsteps : ∀ step ∈ [namedStep ["alice", "rex"]], step.isFilter = true := by
    intro step hstep
    rw [List.mem_singleton.mp hstep]
    rfl
  have hserves : ServesOnce GraphConfig.standard [alice, rex]
      (GraphConfig.standard.startScan .vertex ["alice", "rex"] []) Store.household :=
    servesOnce_household (List.cons_ne_nil _ _) rfl rfl rfl rfl
  obtain ⟨scan, rest, heq, -, hyields⟩ :=
    yields_as_named identified_household distinct_household hsteps hpush Store.household
  cases heq
  obtain ⟨it, hscan, hnodup, -⟩ := hyields hserves
  exact ⟨hpush, it, hscan, hnodup (by decide)⟩

/-- A list names Alice twice. A test of it keeps her once, and the fetch that it is folded into
yields her twice. -/
theorem not_yields_once :
    GraphConfig.standard.pushDown [.select .vertex [] [], namedStep ["alice", "alice"]] =
        .ok [.scan (GraphConfig.standard.startScan .vertex ["alice", "alice"] [])] ∧
      (∀ d ∈ [alice, rex], d.Identified) ∧ ([alice, rex].map StoredDocument.id).Nodup ∧
      ServesOnce GraphConfig.standard [alice, rex]
        (GraphConfig.standard.startScan .vertex ["alice", "alice"] []) Store.household ∧
      ∃ it, Graph.scan ⟨GraphConfig.standard⟩
          (GraphConfig.standard.startScan .vertex ["alice", "alice"] []) = .ok it ∧
        yieldedIds (it.drain Store.household).1 =
          [⟨"tinkerpop", "vertex", some "alice"⟩, ⟨"tinkerpop", "vertex", some "alice"⟩] :=
  ⟨rfl, identified_household, distinct_household,
    servesOnce_household (List.cons_ne_nil _ _) rfl rfl rfl rfl, _, rfl, rfl⟩

end Graph
end Pushdown
