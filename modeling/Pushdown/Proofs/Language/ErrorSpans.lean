import Pushdown.Language.Compile
import Pushdown.Proofs.Language.Spans

/-!
# Spans of rejected sources

The compiler puts an error at a node of the syntax tree: at a literal, a predicate, a name, a key of
a map, or a whole call. Since the nodes of a parsed source stand in it, so does the error, as the
errors of the parser do.

## Results

* `Literal.raw_failsIn`, `PredicateExpr.compile_failsIn`, `StepCall.compile_failsIn`: the errors of
  literals, predicates and calls;
* `compile_failsIn`: the errors of a traversal;
* `spans_well_formed`: the spans of a source that is parsed, and of one that is rejected.
-/

namespace Pushdown
namespace Language

open Outcome

/-- The errors of a part of the compiler stand in the source. -/
abbrev FailsIn {α : Type} (source : String) (compiled : Compiled α) : Prop :=
  Settles (fun e => e.span.StandsIn source) (fun _ => True) compiled

variable {source : String}

/-! ## Literals -/

theorem traverse_failsIn {α β : Type} {f : α → Compiled β} {as : List α}
    (h : ∀ a ∈ as, FailsIn source (f a)) : FailsIn source (traverse f as) := by
  induction as with
  | nil => trivial
  | cons a as ih =>
      obtain ⟨ha, has⟩ := List.forall_mem_cons.mp h
      rw [traverse]
      refine ha.elim (fun _ he => he) fun b _ => ?_
      dsimp only
      exact (ih has).elim (fun _ he => he) fun _ _ => trivial

theorem mem_of_firstDuplicate? {seen : List String} {names : List (Spanned String)}
    {name : Spanned String} (h : firstDuplicate? seen names = some name) : name ∈ names := by
  induction names generalizing seen with
  | nil => cases h
  | cons other names ih =>
      rw [firstDuplicate?] at h
      split at h
      · rw [← Option.some.inj h]
        exact List.mem_cons_self
      · exact List.mem_cons_of_mem _ (ih h)

-- The trees of a literal are those of its parts, so the recursion is the compiler's own.
mutual

theorem Literal.raw_failsIn : ∀ l : Literal, (∀ tree ∈ l.childTrees, tree.WellFormed source) →
    FailsIn source l.raw
  | .null, _ => trivial
  | .bool _, _ => trivial
  | .int _, _ => trivial
  | .float _, _ => trivial
  | .string _, _ => trivial
  | .list items, h => by
      rw [Literal.raw]
      exact (Literal.rawItems_failsIn items h).elim (fun _ he => he) fun _ _ => trivial
  | .map entries, h => by
      rw [Literal.raw]
      cases hkey : firstDuplicate? [] (entries.map Prod.fst) with
      | some key =>
          obtain ⟨entry, hentry, rfl⟩ := List.mem_map.mp (mem_of_firstDuplicate? hkey)
          have hmem : SpanTree.leaf entry.1.span ∈ (Literal.map entries).childTrees := by
            rw [Literal.childTrees, Literal.entryTrees_eq]
            exact List.mem_flatMap.mpr ⟨entry, hentry, List.mem_cons_self⟩
          exact (h _ hmem).standsIn
      | none =>
          exact (Literal.rawEntries_failsIn entries h).elim (fun _ he => he) fun _ _ => trivial

theorem Literal.rawItems_failsIn : ∀ items : List (Spanned Literal),
    (∀ tree ∈ Literal.itemTrees items, tree.WellFormed source) →
    FailsIn source (Literal.rawItems items)
  | [], _ => trivial
  | ⟨item, span⟩ :: items, h => by
      obtain ⟨hitem, hitems⟩ := List.forall_mem_cons.mp h
      rw [Literal.rawItems]
      refine (Literal.raw_failsIn item hitem.children).elim (fun _ he => he) fun value _ => ?_
      dsimp only
      exact (Literal.rawItems_failsIn items hitems).elim (fun _ he => he) fun _ _ => trivial

theorem Literal.rawEntries_failsIn : ∀ entries : List (Spanned String × Spanned Literal),
    (∀ tree ∈ Literal.entryTrees entries, tree.WellFormed source) →
    FailsIn source (Literal.rawEntries entries)
  | [], _ => trivial
  | (key, ⟨item, span⟩) :: entries, h => by
      obtain ⟨-, hbehind⟩ := List.forall_mem_cons.mp h
      obtain ⟨hitem, hentries⟩ := List.forall_mem_cons.mp hbehind
      rw [Literal.rawEntries]
      refine (Literal.raw_failsIn item hitem.children).elim (fun _ he => he) fun value _ => ?_
      dsimp only
      exact (Literal.rawEntries_failsIn entries hentries).elim (fun _ he => he) fun _ _ => trivial

end

theorem literalValue_failsIn {item : Spanned Literal}
    (h : (Literal.spanTree item).WellFormed source) : FailsIn source (literalValue item) := by
  rw [literalValue]
  refine (Literal.raw_failsIn item.value h.children).elim (fun _ he => he) fun raw _ => ?_
  dsimp only
  cases Value.of? raw with
  | ok value => trivial
  | error fault => exact h.standsIn

theorem Literal.wellFormed_items {items : List (Spanned Literal)} {span : Span}
    (h : (Literal.spanTree ⟨.list items, span⟩).WellFormed source) :
    ∀ item ∈ items, (Literal.spanTree item).WellFormed source := by
  have hchildren := h.children
  rw [Literal.childTrees, Literal.itemTrees_eq] at hchildren
  exact List.forall_mem_map.mp hchildren

/-! ## Predicates -/

/-- The literals of a membership are the arguments, or the items of the one argument. -/
theorem wellFormed_memberLiterals {arguments : List (Spanned Literal)}
    (h : ∀ item ∈ arguments, (Literal.spanTree item).WellFormed source) :
    ∀ item ∈ memberLiterals arguments, (Literal.spanTree item).WellFormed source := by
  rw [memberLiterals.eq_def]
  split
  · next items span => exact Literal.wellFormed_items (h _ List.mem_cons_self)
  · exact h

theorem compileCall_failsIn {name : String} {arguments : List (Spanned Literal)} {span : Span}
    (hspan : span.StandsIn source)
    (h : ∀ item ∈ arguments, (Literal.spanTree item).WellFormed source) :
    FailsIn source (compileCall name arguments span) := by
  rw [compileCall.eq_def]
  split
  · have hmembers := wellFormed_memberLiterals h
    have hvalues : FailsIn source (traverse literalValue (memberLiterals arguments)) :=
      traverse_failsIn fun item hitem => literalValue_failsIn (hmembers item hitem)
    exact hvalues.map fun _ _ => trivial
  · split
    · split
      · next low high =>
          have hlow := literalValue_failsIn (h low (by simp))
          have hhigh := literalValue_failsIn (h high (by simp))
          exact hlow.bind fun _ _ => hhigh.bind fun _ _ => trivial
      · exact hspan
    · split
      · exact (literalValue_failsIn (h _ List.mem_cons_self)).map fun _ _ => trivial
      · exact hspan

theorem PredicateExpr.compile_failsIn {p : PredicateExpr} (h : p.spanTree.WellFormed source) :
    FailsIn source p.compile := by
  induction p with
  | call name arguments span =>
      obtain ⟨-, harguments⟩ := List.forall_mem_cons.mp h.children
      exact compileCall_failsIn h.standsIn (List.forall_mem_map.mp harguments)
  | and left right ihLeft ihRight | or left right ihLeft ihRight =>
      have hleft := ihLeft (h.children _ (by simp))
      have hright := ihRight (h.children _ (by simp))
      exact hleft.bind fun _ _ => hright.bind fun _ _ => trivial

/-! ## Calls -/

namespace StepCall

variable {step : StepCall} {argument : Argument} {steps : Traversal}
  {convert : Spanned Literal → Compiled Value}

theorem arguments_wellFormed (h : step.spanTree.WellFormed source) :
    ∀ a ∈ step.arguments, a.spanTree.WellFormed source :=
  List.forall_mem_map.mp (List.forall_mem_cons.mp h.children).2

theorem stringArgument_failsIn (h : argument.spanTree.WellFormed source) :
    FailsIn source (step.stringArgument argument) := by
  rw [stringArgument.eq_def]
  split
  · trivial
  · exact Argument.standsIn h

theorem stringValue_failsIn {item : Spanned Literal}
    (h : (Literal.spanTree item).WellFormed source) : FailsIn source (step.stringValue item) := by
  rw [stringValue.eq_def]
  split
  · trivial
  · exact h.standsIn

theorem idOf_failsIn {item : Spanned Literal} (h : (Literal.spanTree item).WellFormed source) :
    FailsIn source (step.idOf item) := by
  rw [idOf.eq_def]
  split
  · trivial
  · trivial
  · exact h.standsIn

theorem testOf_failsIn (h : argument.spanTree.WellFormed source) :
    FailsIn source (testOf argument) := by
  cases argument with
  | literal item => exact (literalValue_failsIn h).map fun _ _ => trivial
  | predicate p => exact p.compile_failsIn h

theorem literalArgument_failsIn
    (hconvert : ∀ item, (Literal.spanTree item).WellFormed source → FailsIn source (convert item))
    (h : argument.spanTree.WellFormed source) :
    FailsIn source (step.literalArgument convert argument) := by
  cases argument with
  | literal item => exact hconvert item h
  | predicate p => exact PredicateExpr.standsIn h

theorem plainArgument_failsIn (h : argument.spanTree.WellFormed source) :
    FailsIn source (step.plainArgument argument) := by
  cases argument with
  | literal item => exact literalValue_failsIn h
  | predicate p => exact PredicateExpr.standsIn h

theorem idsOf_failsIn (h : argument.spanTree.WellFormed source) :
    FailsIn source (step.idsOf argument) := by
  rw [idsOf.eq_def]
  split
  · next items span =>
      have hitems := Literal.wellFormed_items h
      exact traverse_failsIn fun item hitem => idOf_failsIn (hitems item hitem)
  · exact (idOf_failsIn h).map fun _ _ => trivial
  · exact PredicateExpr.standsIn h

theorem oneOf_failsIn (h : step.spanTree.WellFormed source)
    (hconvert : ∀ item, (Literal.spanTree item).WellFormed source → FailsIn source (convert item)) :
    FailsIn source (step.oneOf convert) := by
  have harguments := arguments_wellFormed h
  rw [oneOf.eq_def]
  split
  · exact h.standsIn
  · next p hp => exact p.compile_failsIn (harguments (.predicate p) (by simp [hp]))
  · have hvalues : FailsIn source (traverse (step.literalArgument convert) step.arguments) :=
      traverse_failsIn fun a ha => literalArgument_failsIn hconvert (harguments a ha)
    exact hvalues.map fun _ _ => trivial

theorem compileHas_failsIn (h : step.spanTree.WellFormed source) :
    FailsIn source step.compileHas := by
  have harguments := arguments_wellFormed h
  have hstring : ∀ a ∈ step.arguments, FailsIn source (step.stringArgument a) :=
    fun a ha => stringArgument_failsIn (harguments a ha)
  have htest : ∀ a ∈ step.arguments, FailsIn source (testOf a) :=
    fun a ha => testOf_failsIn (harguments a ha)
  rw [compileHas.eq_def]
  split
  · next key hkey => exact (hstring key (by simp [hkey])).bind fun _ _ => trivial
  · next key test heq =>
      exact (hstring key (by simp [heq])).bind fun _ _ =>
        (htest test (by simp [heq])).bind fun _ _ => trivial
  · next label key test heq =>
      exact (hstring label (by simp [heq])).bind fun _ _ =>
        (hstring key (by simp [heq])).bind fun _ _ =>
          (htest test (by simp [heq])).bind fun _ _ => trivial
  · exact h.standsIn

theorem labelAll_failsIn {arguments : List Argument}
    (h : ∀ a ∈ arguments, a.spanTree.WellFormed source) :
    FailsIn source (step.labelAll steps arguments) := by
  induction arguments generalizing steps with
  | nil => trivial
  | cons argument arguments ih =>
      obtain ⟨hargument, harguments⟩ := List.forall_mem_cons.mp h
      rw [labelAll]
      exact (stringArgument_failsIn hargument).elim (fun _ he => he) fun _ _ => ih harguments

theorem compile_failsIn (h : step.spanTree.WellFormed source) :
    FailsIn source (step.compile steps) := by
  have harguments := arguments_wellFormed h
  rw [StepCall.compile.eq_def]
  split
  · exact (compileHas_failsIn h).map fun _ _ => trivial
  · exact (oneOf_failsIn h fun _ => stringValue_failsIn).map fun _ _ => trivial
  · refine (oneOf_failsIn h fun item hitem => ?_).map fun _ _ => trivial
    exact (idOf_failsIn hitem).map fun _ _ => trivial
  · exact (oneOf_failsIn h fun _ => stringValue_failsIn).map fun _ _ => trivial
  · exact (oneOf_failsIn h fun _ => literalValue_failsIn).map fun _ _ => trivial
  · split
    · exact h.standsIn
    · trivial
  · split
    · exact h.standsIn
    · exact labelAll_failsIn harguments
  · have hvalues : FailsIn source (traverse step.plainArgument step.arguments) :=
      traverse_failsIn fun a ha => plainArgument_failsIn (harguments a ha)
    exact hvalues.map fun _ _ => trivial

theorem compileStart_failsIn (h : step.spanTree.WellFormed source) :
    FailsIn source step.compileStart := by
  have hids : FailsIn source (traverse step.idsOf step.arguments) :=
    traverse_failsIn fun a ha => idsOf_failsIn (arguments_wellFormed h a ha)
  rw [compileStart]
  refine hids.bind fun ids _ => ?_
  split
  · trivial
  · trivial
  · exact (h.children _ List.mem_cons_self).standsIn

end StepCall

/-! ## Traversals -/

theorem compileCalls_failsIn {steps : Traversal} {calls : List StepCall}
    (h : ∀ call ∈ calls, call.spanTree.WellFormed source) :
    FailsIn source (compileCalls steps calls) := by
  induction calls generalizing steps with
  | nil => trivial
  | cons call calls ih =>
      obtain ⟨hcall, hcalls⟩ := List.forall_mem_cons.mp h
      rw [compileCalls]
      exact (StepCall.compile_failsIn hcall).elim (fun _ he => he) fun _ _ => ih hcalls

theorem compile_failsIn {expr : TraversalExpr} (h : expr.spanTree.WellFormed source) :
    FailsIn source (compile expr) := by
  obtain ⟨hsource, hcalls⟩ := List.forall_mem_cons.mp h.children
  obtain ⟨hstart, hsteps⟩ := List.forall_mem_cons.mp hcalls
  rw [compile]
  split
  · exact hsource.standsIn
  · refine (StepCall.compileStart_failsIn hstart).elim (fun _ he => he) fun _ _ => ?_
    exact compileCalls_failsIn (List.forall_mem_map.mp hsteps)

/-- Where the parser or the compiler fails, the span of the error stands in the source. -/
theorem parseAndCompile_settles (source : String) :
    Settles (fun e => e.diagnostic.span.StandsIn source) (fun _ => True)
      (parseAndCompile source) := by
  rw [parseAndCompile]
  refine (parse_settles source).elim (fun _ he => he) fun expr hexpr => ?_
  dsimp only
  exact (compile_failsIn hexpr).elim (fun _ he => he) fun _ _ => trivial

/-- The spans of a syntax tree are those of parts of the source that are nested as its nodes are,
and the span of an error is that of a part of the source. -/
theorem spans_well_formed (source : String) :
    (∀ expr, parse source = .ok expr → expr.spanTree.WellFormed source) ∧
      ∀ e, parseAndCompile source = .error e → e.diagnostic.span.StandsIn source := by
  have hparse := parse_settles source
  have hcompile := parseAndCompile_settles source
  constructor
  · intro expr h
    rwa [h] at hparse
  · intro e h
    rwa [h] at hcompile

/-- A traversal with nodes of every kind. -/
def nestedSource : String := "g.V(['é']).has('age', P.gt(9).and(lt(20)))\n  .out(\x7bto: 'ü'\x7d)"

/-- A traversal that names a key of a map twice. -/
def repeatedKey : String := "g.V().out(\x7b'é': 1, 'é': 2\x7d)"

theorem spans_well_formed_nested :
    (∃ expr, parse nestedSource = .ok expr ∧ expr.span = ⟨0, 62⟩ ∧
      expr.spanTree.WellFormed nestedSource) ∧
    ∃ e, parseAndCompile repeatedKey = .error e ∧ e.diagnostic.span = ⟨20, 24⟩ ∧
      e.diagnostic.span.StandsIn repeatedKey := by
  have hnested : (parse nestedSource).toOption.map TraversalExpr.span = some ⟨0, 62⟩ := by
    decide +kernel
  have hrepeated : (match parseAndCompile repeatedKey with
      | .error e => some e.diagnostic.span
      | .ok _ => none) = some ⟨20, 24⟩ := by decide +kernel
  constructor
  · cases hparse : parse nestedSource with
    | error e =>
        rw [hparse] at hnested
        cases hnested
    | ok expr =>
        rw [hparse] at hnested
        exact ⟨expr, rfl, Option.some.inj hnested, (spans_well_formed nestedSource).1 expr hparse⟩
  · cases hrun : parseAndCompile repeatedKey with
    | ok steps =>
        rw [hrun] at hrepeated
        cases hrepeated
    | error e =>
        rw [hrun] at hrepeated
        exact ⟨e, rfl, Option.some.inj hrepeated, (spans_well_formed repeatedKey).2 e hrun⟩

end Language
end Pushdown
