import Pushdown.Proofs.Graph.Documents
import Pushdown.Proofs.Plan.Planning

/-!
# Folding ids into a scan

An id container that names its values is not tested again: the scan fetches the ids of these
values. Reading an id and writing the id of an identity undo each other, so the documents
that are fetched are those whose ids are among the values.

A scan without ids finds everything. A container that names no value leaves it without ids,
so that it finds every element, where the container would let none pass.

## Results

* `GraphConfig.pushDown_named`: what a selection with a naming container becomes;
* `Predicate.onIdText_test_iff`: the ids that pass a naming predicate;
* `Graph.filtered_total`: the run of a scan that can be planned succeeds;
* `Graph.folded_iff_passes`: folding finds the elements that pass, unless no value is named
  and there is something to find.
-/

namespace Pushdown

variable {config : GraphConfig} {kind : ElementKind}

namespace Predicate

/-- An id predicate that names its values: equality with one, or membership in a list. -/
inductive NamesValues : Predicate → List Value → Prop
  | eq (value : Value) : NamesValues (.compare "eq" value) [value]
  | within (values : List Value) : NamesValues (.compare "within" (.list values)) values

theorem namedValues?_of_namesValues {p : Predicate} {values : List Value}
    (h : NamesValues p values) : p.namedValues? = some values := by
  cases h with
  | eq value => rfl
  | within values => rfl

/-- The text of an id is the operand that ids are compared with. -/
theorem integersAsText_of_idText {value : Value} {text : String} (h : idText value = .ok text) :
    value.integersAsText = .string text := by
  cases value with
  | string value =>
      cases h
      rfl
  | int32 value =>
      cases h
      rfl
  | int64 value =>
      cases h
      rfl
  | null | bool | double | list | map => cases h

/-- A text is a member of named values when it is one of their ids. -/
theorem isMember_namedIds_iff (text : String) :
    ∀ {values : List Value} {ids : List String}, config.namedIds kind values = .ok ids →
      (Operator.isMember (.string text) (Value.integersAsTextItems values) = true ↔ text ∈ ids)
  | [], ids, h => by
      cases h
      simp [Value.integersAsTextItems, Operator.isMember]
  | value :: values, ids, h => by
      obtain ⟨id, hid, h⟩ := Outcome.bind_eq_ok_iff.mp h
      obtain ⟨element, -, h⟩ := Outcome.bind_eq_ok_iff.mp h
      obtain ⟨rest, hrest, h⟩ := Outcome.bind_eq_ok_iff.mp h
      cases h
      have ih := isMember_namedIds_iff text hrest
      rw [Operator.isMember] at ih ⊢
      rw [Value.integersAsTextItems, List.any_cons, Bool.or_eq_true, ih,
        integersAsText_of_idText hid, List.mem_cons, Value.equals, beq_iff_eq]

/-- The ids that pass a naming predicate are those of its values. -/
theorem onIdText_test_iff {p : Predicate} {values : List Value} (hnames : NamesValues p values)
    {ids : List String} (hids : config.namedIds kind values = .ok ids) (text : String) :
    p.onIdText.test (some (.string text)) = .ok true ↔ text ∈ ids := by
  rw [← isMember_namedIds_iff text hids]
  cases hnames with
  | eq value =>
      have htest : (Predicate.compare "eq" value).onIdText.test (some (.string text)) =
          .ok ((Value.string text).equals value.integersAsText) := rfl
      rw [htest, Except.ok.injEq, Value.integersAsTextItems, Value.integersAsTextItems,
        Operator.isMember, List.any_cons, List.any_nil, Bool.or_false]
  | within values =>
      have htest : (Predicate.compare "within" (.list values)).onIdText.test
          (some (.string text)) =
          .ok (Operator.isMember (.string text) (Value.integersAsTextItems values)) := rfl
      rw [htest, Except.ok.injEq]

end Predicate

namespace GraphConfig

/-- A selection with a container that names its values becomes a scan of their ids. -/
theorem pushDown_named {p : Predicate} {values : List Value} (hnames : p.NamesValues values)
    {labels labels' : List String} {pushed : List Step}
    (h : config.pushDown [.select kind [] labels, .has [⟨.id, p⟩] labels'] = .ok pushed) :
    ∃ ids, config.namedIds kind values = .ok ids ∧
      pushed = [.scan (config.startScan kind ids (labels ++ labels'))] := by
  have habsorb : config.absorb (config.startScan kind [] labels) ⟨.id, p⟩ =
      (config.namedIds kind values).map fun ids => some (config.startScan kind ids labels) := by
    have hempty : (config.startScan kind [] labels).ids.isEmpty = true := rfl
    unfold absorb
    dsimp only
    rw [if_pos hempty, Predicate.namedValues?_of_namesValues hnames]
    rfl
  cases hids : config.namedIds kind values with
  | error e =>
      rw [hids] at habsorb
      simp only [pushDown, checkIds, absorbSteps, absorbAll, habsorb, Except.map] at h
      cases h
  | ok ids =>
      rw [hids] at habsorb
      simp only [pushDown, checkIds, absorbSteps, absorbAll, habsorb, Except.map] at h
      cases h
      exact ⟨ids, rfl, rfl⟩

/-- The values that are named are none just when their ids are. -/
theorem namedIds_eq_nil_iff {values : List Value} {ids : List String}
    (h : config.namedIds kind values = .ok ids) : ids = [] ↔ values = [] := by
  cases values with
  | nil =>
      cases h
      simp
  | cons value values =>
      obtain ⟨id, -, h⟩ := Outcome.bind_eq_ok_iff.mp h
      obtain ⟨element, -, h⟩ := Outcome.bind_eq_ok_iff.mp h
      obtain ⟨rest, -, h⟩ := Outcome.bind_eq_ok_iff.mp h
      cases h
      simp

/-- An identity of a collection to look in is read from its id. -/
theorem parseId_of_encodeId {raw : GraphConfig} (hvalid : raw.validate = .ok config)
    {text : String} {id parsed : ElementId} {key : String} (hkeyed : KeyedIn config id key)
    (hmem : id.collection ∈ config.collections kind) (hencode : config.encodeId id = some text)
    (hparsed : config.parseId kind text = .ok parsed) : config.parseId kind text = .ok id := by
  obtain ⟨key', hkeyed', -, hnames, hencode'⟩ := parseId_eq_ok_iff.mp hparsed
  -- the ids of a simple graph name no collection: both are of the only one of the kind
  have hcollection : config.type = .simple → parsed.collection = id.collection := by
    intro htype
    rw [htype] at hnames
    rw [collections_eq_single hvalid htype, Names.mem_single] at hmem
    rw [hmem]
    exact hnames
  rw [← eq_of_encodeId hkeyed' hkeyed hcollection hencode' hencode]
  exact hparsed

end GraphConfig

namespace Graph

variable {σ : Type} [Client σ] {documents : List StoredDocument}

/-- The rows of a scan that can be planned are all decided. -/
theorem accept_total (hplaced : ∀ d ∈ documents, d.Placed config) {scan : Scan}
    (hplannable : Plannable config scan) {query : Query} {d : StoredDocument}
    (hd : d ∈ documents) :
    ∃ found, (iteration ⟨config⟩ scan.containers query).accept d.json = .ok found := by
  obtain ⟨element, helement⟩ := (hplaced d hd).decodes
  obtain ⟨keep, hkeep⟩ : ∃ b, config.testContainers element scan.containers = .ok b := by
    refine GraphConfig.testContainers_total fun c hc => ?_
    obtain ⟨filter, hfilter, hpush⟩ := hplannable.pushed c hc
    exact GraphConfig.testContainer_total hfilter hpush element
  exact ⟨_, Outcome.bind_eq_ok_iff.mpr ⟨element, helement,
    Outcome.bind_eq_ok_iff.mpr ⟨keep, hkeep, rfl⟩⟩⟩

/-- The run of a scan that can be planned succeeds. -/
theorem filtered_total (hplaced : ∀ d ∈ documents, d.Placed config) {scan : Scan}
    (hplannable : Plannable config scan) {s : σ} (hserves : Serves config documents scan s) :
    ∃ found s', filtered ⟨config⟩ scan [] s = (.ok found, s') := by
  have hrun : ∃ it elements, Graph.scan ⟨config⟩ scan = .ok it ∧
      collected (it.drain s).1 = .ok elements := by
    unfold Graph.scan
    by_cases hempty : scan.collections.isEmpty = true
    · rw [if_pos hempty]
      exact ⟨⟨config, [], .done⟩, [], rfl, rfl⟩
    · have hne : scan.collections ≠ .empty := fun h => hempty (Names.isEmpty_iff.mpr h)
      obtain ⟨plan, hplan, hresidual, -⟩ := GraphConfig.plan_total hplannable hne
      obtain ⟨rows, s', hquery, hrows⟩ := hserves plan hplan
      have hdecided : ∀ row ∈ rows, ∃ found,
          (iteration ⟨config⟩ scan.containers plan.query).accept row = .ok found := by
        intro row hrow
        obtain ⟨d, hd, -, rfl⟩ := (hrows row).mp hrow
        exact accept_total hplaced hplannable hd
      obtain ⟨elements, helements⟩ := collected_total hdecided
      refine ⟨iteration ⟨config⟩ scan.containers plan.query, elements, ?_, ?_⟩
      · rw [if_neg hempty, hplan, ← hresidual]
        rfl
      · rw [ElementIteration.drain_eq rfl hquery]
        exact helements
  obtain ⟨it, elements, hscan, hcollected⟩ := hrun
  exact ⟨elements, (it.drain s).2, filtered_eq_ok_iff.mpr
    ⟨it, elements, hscan, hcollected, passing_nil elements, rfl⟩⟩

/-- A scan of some ids keeps the elements of its collections whose ids they are. -/
theorem keeps_startScan_iff {ids labels : List String} {element : Element} :
    (config.startScan kind ids labels).Keeps config element ↔
      element.id.collection ∈ config.collections kind ∧
        (ids = [] ∨ ∃ id ∈ ids, config.parseId kind id = .ok element.id) := by
  constructor
  · rintro ⟨hmem, hnamed, -⟩
    exact ⟨hmem, hnamed⟩
  · rintro ⟨hmem, hnamed⟩
    refine ⟨hmem, hnamed, ?_⟩
    intro c hc
    cases hc

/-- An element of a collection to look in is fetched by an id just when it is its own. -/
theorem fetched_iff {raw : GraphConfig} (hvalid : raw.validate = .ok config)
    {values : List Value} {ids : List String} (hids : config.namedIds kind values = .ok ids)
    {id : ElementId} {key text : String} (hkeyed : KeyedIn config id key)
    (hmem : id.collection ∈ config.collections kind) (hencode : config.encodeId id = some text) :
    (∃ name ∈ ids, config.parseId kind name = .ok id) ↔ text ∈ ids := by
  constructor
  · rintro ⟨name, hname, hparsed⟩
    obtain ⟨-, -, -, -, hencode'⟩ := GraphConfig.parseId_eq_ok_iff.mp hparsed
    rw [hencode, Option.some.injEq] at hencode'
    rw [hencode']
    exact hname
  · intro htext
    obtain ⟨parsed, hparsed⟩ := GraphConfig.parsed_of_namedIds hids text htext
    exact ⟨text, htext, GraphConfig.parseId_of_encodeId hvalid hkeyed hmem hencode hparsed⟩

/-- The id of an element passes an id predicate. -/
def PassesId (config : GraphConfig) (p : Predicate) (element : Element) : Prop :=
  p.onIdText.test ((config.encodeId element.id).map .string) = .ok true

/-- Of all elements, folding finds those that pass, and every one if no value is named. -/
theorem mem_folded_iff {raw : GraphConfig} (hvalid : raw.validate = .ok config)
    (hplaced : ∀ d ∈ documents, d.Placed config) {p : Predicate} {values : List Value}
    (hnames : p.NamesValues values) {ids labels labels' : List String}
    (hids : config.namedIds kind values = .ok ids) {s s' t t' : σ}
    (hserves : Serves config documents (config.startScan kind ids labels') s)
    (hserves' : Serves config documents (config.startScan kind [] labels) t)
    {folded all : List Element}
    (hfolded : filtered ⟨config⟩ (config.startScan kind ids labels') [] s = (.ok folded, s'))
    (hall : filtered ⟨config⟩ (config.startScan kind [] labels) [] t = (.ok all, t'))
    (element : Element) :
    (element ∈ folded ↔ element ∈ all ∧ (values = [] ∨ PassesId config p element)) ∧
      (element ∈ all → values = [] → ¬ PassesId config p element) := by
  rw [mem_filtered_iff hplaced hserves hfolded, mem_filtered_iff hplaced hserves' hall,
    keeps_startScan_iff, keeps_startScan_iff, ← GraphConfig.namedIds_eq_nil_iff hids]
  simp only [List.not_mem_nil, false_implies, implies_true, and_true, true_or, PassesId]
  have hpasses : (∃ d ∈ documents, config.decodeElementRow d.json = .ok element) →
      element.id.collection ∈ config.collections kind →
        (p.onIdText.test ((config.encodeId element.id).map .string) = .ok true ↔
          ∃ name ∈ ids, config.parseId kind name = .ok element.id) := by
    rintro ⟨d, hd, hdecode⟩ hmem
    obtain ⟨key, hkeyed, -, -⟩ := (hplaced d hd).keyed hdecode
    obtain ⟨text, hencode⟩ : ∃ text, config.encodeId element.id = some text :=
      GraphConfig.encodeId_of_key hkeyed.hasKey
    rw [fetched_iff hvalid hids hkeyed hmem hencode, hencode]
    exact Predicate.onIdText_test_iff hnames hids text
  constructor
  · rw [and_assoc]
    refine and_congr_right fun hdecode => and_congr_right fun hmem => ?_
    rw [hpasses hdecode hmem]
  · rintro ⟨hdecode, hmem⟩ hnil
    rw [hpasses hdecode hmem, hnil]
    rintro ⟨name, hname, -⟩
    cases hname

/-- Folding a container that names its values finds, of all elements, those that pass the
container, just when some value is named or there is nothing to find. When no value is named
it finds all of them. -/
theorem folded_iff_passes {raw : GraphConfig} (hvalid : raw.validate = .ok config)
    (hplaced : ∀ d ∈ documents, d.Placed config) {p : Predicate} {values : List Value}
    (hnames : p.NamesValues values) {labels labels' : List String} {scan : Scan}
    {rest : List Step}
    (hpush : config.pushDown [.select kind [] labels, .has [⟨.id, p⟩] labels'] =
      .ok (.scan scan :: rest))
    {s t : σ} (hserves : Serves config documents scan s)
    (hserves' : Serves config documents (config.startScan kind [] labels) t) :
    ∃ folded all s' t',
      filtered ⟨config⟩ scan (hasContainers rest) s = (.ok folded, s') ∧
      filtered ⟨config⟩ (config.startScan kind [] labels) [] t = (.ok all, t') ∧
      ((∀ element, element ∈ folded ↔ element ∈ all ∧ PassesId config p element) ↔
        values ≠ [] ∨ all = []) ∧
      (values = [] → ∀ element, element ∈ folded ↔ element ∈ all) := by
  obtain ⟨ids, hids, heq⟩ := GraphConfig.pushDown_named hnames hpush
  cases heq
  obtain ⟨folded, s', hfolded⟩ := filtered_total hplaced
    (GraphConfig.plannable_of_pushDown (fun given h => by cases h) hpush) hserves
  have hstart : Plannable config (config.startScan kind [] labels) :=
    GraphConfig.plannable_startScan rfl
  obtain ⟨all, t', hall⟩ := filtered_total hplaced hstart hserves'
  have hmem := mem_folded_iff hvalid hplaced hnames hids hserves hserves' hfolded hall
  refine ⟨folded, all, s', t', hfolded, hall, ⟨?_, ?_⟩, ?_⟩
  · intro hsame
    by_cases hnil : values = []
    · -- every element is found and none passes, so there is none
      refine .inr (List.eq_nil_iff_forall_not_mem.mpr fun element helement => ?_)
      have hin : element ∈ folded := (hmem element).1.mpr ⟨helement, .inl hnil⟩
      exact (hmem element).2 helement hnil ((hsame element).mp hin).2
    · exact .inl hnil
  · rintro (hne | hnone) element
    · rw [(hmem element).1, or_iff_right hne]
    · rw [(hmem element).1, hnone]
      simp
  · intro hnil element
    rw [(hmem element).1, and_iff_left (.inl hnil)]

open StoredDocument

/-- A fetch of one id is answered with one. -/
theorem serves_alice :
    Serves GraphConfig.standard [alice, rex] (GraphConfig.standard.startScan .vertex ["alice"] [])
      Store.household := by
  have hplanned : GraphConfig.standard.planScan
      (GraphConfig.standard.startScan .vertex ["alice"] []) =
      .ok ⟨⟨"FOR d IN DOCUMENT(@ids) RETURN d",
        [("ids", Json.strings ["tinkerpop_vertex/alice"])]⟩, .none, [], []⟩ := rfl
  have hids : (GraphConfig.standard.startScan .vertex ["alice"] []).ids ≠ [] := by decide
  intro plan hplan
  rw [hplanned] at hplan
  cases hplan
  refine ⟨[alice.json], _, rfl, fun row => ?_⟩
  unfold Requested
  simp only [if_neg hids, exists_bound_iff, List.mem_singleton]
  constructor
  · rintro rfl
    exact ⟨alice, List.mem_cons_self, rfl, rfl⟩
  · rintro ⟨d, hd, hid, rfl⟩
    rcases (List.mem_cons.mp hd).imp_right List.mem_singleton.mp with rfl | rfl
    · rfl
    · exact absurd hid (by decide)

/-- One vertex is named, and the elements that are found are those with its id. -/
theorem folded_iff_passes_alice :
    ∃ folded all s' t',
      filtered ⟨GraphConfig.standard⟩ (GraphConfig.standard.startScan .vertex ["alice"] []) []
        Store.household = (.ok folded, s') ∧
      filtered ⟨GraphConfig.standard⟩ (GraphConfig.standard.startScan .vertex [] []) []
        Store.household = (.ok all, t') ∧
      ∀ element, element ∈ folded ↔ element ∈ all ∧ PassesId GraphConfig.standard
        (.compare "within" (.list [.string "alice"])) element := by
  have hpush : GraphConfig.standard.pushDown [.select .vertex [] [],
        .has [⟨.id, .compare "within" (.list [.string "alice"])⟩] []] =
      .ok [.scan (GraphConfig.standard.startScan .vertex ["alice"] [])] := rfl
  obtain ⟨folded, all, s', t', hfolded, hall, hiff, -⟩ := folded_iff_passes
    GraphConfig.validate_initial placed_household (.within [.string "alice"]) hpush
    serves_alice (serves_household [])
  exact ⟨folded, all, s', t', hfolded, hall, hiff.mpr (.inl (List.cons_ne_nil _ _))⟩

/-- No value is named, no id passes, and both vertices are found. -/
theorem not_folded_of_no_value :
    GraphConfig.standard.pushDown [.select .vertex [] [],
        .has [⟨.id, .compare "within" (.list [])⟩] []] =
      .ok [.scan (GraphConfig.standard.startScan .vertex [] [])] ∧
    Serves GraphConfig.standard [alice, rex] (GraphConfig.standard.startScan .vertex [] [])
      Store.household ∧
    (∃ found s', filtered ⟨GraphConfig.standard⟩
        (GraphConfig.standard.startScan .vertex [] []) [] Store.household = (.ok found, s') ∧
      found ≠ []) ∧
    ∀ element, ¬ PassesId GraphConfig.standard (.compare "within" (.list [])) element := by
  refine ⟨rfl, serves_household [], ?_, ?_⟩
  · have hstart : Plannable GraphConfig.standard (GraphConfig.standard.startScan .vertex [] []) :=
      GraphConfig.plannable_startScan rfl
    obtain ⟨found, s', hfound⟩ :=
      filtered_total placed_household hstart (serves_household [])
    refine ⟨found, s', hfound, fun hnone => ?_⟩
    have hmem : Element.vertex ⟨⟨"tinkerpop", "vertex", some "alice"⟩, "person", some "1",
        [("age", .int32 36)], []⟩ ∈ found := by
      rw [mem_filtered_iff placed_household (serves_household []) hfound, keeps_startScan_iff]
      exact ⟨⟨alice, List.mem_cons_self, rfl⟩, ⟨List.mem_singleton.mpr rfl, .inl rfl⟩,
        fun c hc => by cases hc⟩
    rw [hnone] at hmem
    cases hmem
  · intro element helement
    unfold PassesId at helement
    cases hid : GraphConfig.standard.encodeId element.id with
    | none =>
        rw [hid] at helement
        cases helement
    | some text =>
        rw [hid] at helement
        cases helement

end Graph

end Pushdown
