import Mathlib.Data.List.Forall2
import Pushdown.Language.Compile
import Pushdown.Proofs.Outcome

/-!
# Steps and labels of compiled traversals

Every call of a traversal becomes one step, only `as` adds none: it labels the last step before
it that is no barrier. Seen from that step, its labels are the arguments of the calls of `as` that
stand behind it with nothing but barriers and other calls of `as` between.

While calls are compiled, the steps that are there end with a step that takes labels and barriers
behind it. The next labels go to that step, whatever stands before it.

## Results

* `Traversal.label_eq`: the step that a label goes to;
* `StepCall.adds_of_compile`, `StepCall.compile_label`: what a call adds to the steps before it;
* `compileCalls_keeps`: the steps and labels of several calls, by induction on them;
* `compile_keeps_steps_and_labels`: those of a whole traversal.
-/

namespace Pushdown

/-! ## Labelling -/

namespace Step

/-- Whether a step takes labels. -/
def TakesLabels (step : Step) : Prop := step ≠ .barrier

/-- The step with other labels. -/
def withLabels (labels : List String) : Step → Step
  | select kind ids _ => select kind ids labels
  | has containers _ => has containers labels
  | barrier => barrier
  | other name arguments _ => other name arguments labels
  | scan s => scan { s with labels := labels }

variable {step : Step}

theorem addLabel?_eq (h : step.TakesLabels) (label : String) :
    step.addLabel? label = some (step.withLabels (step.labels ++ [label])) := by
  cases step with
  | barrier => exact absurd rfl h
  | _ => rfl

theorem takesLabels_withLabels (h : step.TakesLabels) (labels : List String) :
    (step.withLabels labels).TakesLabels := by
  cases step with
  | barrier => exact absurd rfl h
  | _ => exact Step.noConfusion

theorem labels_withLabels (h : step.TakesLabels) (labels : List String) :
    (step.withLabels labels).labels = labels := by
  cases step with
  | barrier => exact absurd rfl h
  | _ => rfl

theorem withLabels_labels (step : Step) : step.withLabels step.labels = step := by
  cases step <;> rfl

theorem withLabels_withLabels (step : Step) (labels labels' : List String) :
    (step.withLabels labels').withLabels labels = step.withLabels labels := by
  cases step <;> rfl

end Step

namespace Traversal

theorem labelFirst_eq {step : Step} (h : step.TakesLabels) (label : String) (rest : List Step) :
    ∀ barriers : List Step, (∀ b ∈ barriers, b = .barrier) →
      labelFirst label (barriers ++ step :: rest) =
        barriers ++ step.withLabels (step.labels ++ [label]) :: rest
  | [], _ => by rw [List.nil_append, labelFirst, Step.addLabel?_eq h, List.nil_append]
  | b :: barriers, hb => by
      rw [List.forall_mem_cons] at hb
      rw [hb.1, List.cons_append, labelFirst, Step.addLabel?]
      exact congrArg (.barrier :: ·) (labelFirst_eq h label rest barriers hb.2)

/-- A label goes to the last step before the barriers at the end. -/
theorem label_eq {front barriers : List Step} {step : Step} (h : step.TakesLabels)
    (hb : ∀ b ∈ barriers, b = .barrier) (label : String) :
    Traversal.label (front ++ step :: barriers) label =
      front ++ step.withLabels (step.labels ++ [label]) :: barriers := by
  have hreverse : ∀ b ∈ barriers.reverse, b = .barrier := fun b hmem =>
    hb b (List.mem_reverse.mp hmem)
  rw [Traversal.label, List.reverse_append, List.reverse_cons, List.append_assoc,
    List.singleton_append, labelFirst_eq h label front.reverse _ hreverse, List.reverse_append,
    List.reverse_cons, List.reverse_reverse, List.reverse_reverse, List.append_assoc,
    List.singleton_append]

end Traversal

namespace Language

/-! ## What calls add -/

/-- The string that an argument is, if it is one. -/
def Argument.string? : Argument → Option String
  | .literal ⟨.string text, _⟩ => some text
  | _ => none

namespace StepCall

/-- Whether a call labels a step. -/
def isLabel (call : StepCall) : Bool := call.name.value = "as"

/-- Whether a call adds a barrier. -/
def isBarrier (call : StepCall) : Bool := call.name.value = "barrier"

/-- The labels that a call attaches. -/
def labels (call : StepCall) : List String :=
  if call.isLabel then call.arguments.filterMap Argument.string? else []

end StepCall

/-- The names of calls that filter. -/
def filterNames : List String := ["has", "hasLabel", "hasId", "hasKey", "hasValue"]

/-- A step has the form that the name of a call asks for; a call of `has` with a key alone adds no
filter step. -/
def HasForm (call : StepCall) : Step → Prop
  | .has _ _ => call.name.value ∈ filterNames
  | .barrier => call.isBarrier = true
  | .other name _ _ => call.name.value = name ∧ call.isBarrier = false ∧
      (name ∈ filterNames → name = "has")
  | .select _ _ _ | .scan _ => False

/-- The labels that a step takes from the calls behind it: those of `as`, up to the next call that
adds a step which takes labels itself. -/
def labelsBehind (calls : List StepCall) : List String :=
  (calls.takeWhile fun call => call.isLabel || call.isBarrier).flatMap StepCall.labels

/-- The calls that add a step, each with the calls behind it. -/
def placed : List StepCall → List (StepCall × List StepCall)
  | [] => []
  | call :: calls => if call.isLabel then placed calls else (call, calls) :: placed calls

/-- A step stands for a call before other calls: without labels it is what the call alone is
compiled to, and its labels are those of the calls behind it. -/
structure StandsFor (place : StepCall × List StepCall) (step : Step) : Prop where
  form : HasForm place.1 step
  alone : place.1.compile [] = .ok [step.withLabels []]
  labels : step.labels = if place.1.isBarrier then [] else labelsBehind place.2

section calls

variable {call : StepCall} {calls : List StepCall}

/-- A step that has the form of a call is a barrier when the call adds one. -/
theorem HasForm.takesLabels_iff {step : Step} (h : HasForm call step) :
    step.TakesLabels ↔ call.isBarrier = false := by
  cases step with
  | barrier =>
      rw [HasForm] at h
      simp [Step.TakesLabels, h]
  | other name arguments labels => simp [Step.TakesLabels, h.2.1]
  | has containers labels =>
      have hname : ∀ name ∈ filterNames, name ≠ "barrier" := by decide
      simpa [Step.TakesLabels, StepCall.isBarrier] using hname _ h
  | select kind ids labels => cases h
  | scan s => cases h

theorem HasForm.withLabels {step : Step} (h : HasForm call step) (labels : List String) :
    HasForm call (step.withLabels labels) := by
  cases step <;> exact h

theorem isLabel_eq_false_of_isBarrier (h : call.isBarrier = true) : call.isLabel = false := by
  simp only [StepCall.isBarrier, decide_eq_true_eq] at h
  simp [StepCall.isLabel, h]

theorem labels_of_not_isLabel (h : call.isLabel = false) : call.labels = [] := by
  rw [StepCall.labels, h, if_neg Bool.false_ne_true]

theorem labelsBehind_label (h : call.isLabel = true) :
    labelsBehind (call :: calls) = call.labels ++ labelsBehind calls := by
  simp [labelsBehind, h]

theorem labelsBehind_barrier (h : call.isBarrier = true) :
    labelsBehind (call :: calls) = labelsBehind calls := by
  simp [labelsBehind, h, labels_of_not_isLabel (isLabel_eq_false_of_isBarrier h)]

theorem labelsBehind_other (hlabel : call.isLabel = false) (hbarrier : call.isBarrier = false) :
    labelsBehind (call :: calls) = [] := by
  simp [labelsBehind, hlabel, hbarrier]

theorem length_placed (calls : List StepCall) :
    (placed calls).length = (calls.filter fun call => !call.isLabel).length := by
  induction calls with
  | nil => rfl
  | cons call calls ih => cases h : call.isLabel <;> simp [placed, h, ih]

/-- The labels of the steps, in their order, are those of the calls, in theirs. -/
theorem labels_of_standsFor :
    ∀ {calls : List StepCall} {made : List Step}, List.Forall₂ StandsFor (placed calls) made →
      labelsBehind calls ++ made.flatMap Step.labels = calls.flatMap StepCall.labels
  | [], _, .nil => rfl
  | call :: calls, made, h => by
      rw [List.flatMap_cons]
      rw [placed] at h
      cases hlabel : call.isLabel with
      | true =>
          rw [hlabel, if_pos rfl] at h
          rw [labelsBehind_label hlabel, List.append_assoc, labels_of_standsFor h]
      | false =>
          rw [hlabel, if_neg Bool.false_ne_true] at h
          obtain ⟨step, rest, hstep, hrest, rfl⟩ := List.forall₂_cons_left_iff.mp h
          have ih := labels_of_standsFor hrest
          rw [labels_of_not_isLabel hlabel, List.flatMap_cons, hstep.labels, List.nil_append, ← ih]
          cases hbarrier : call.isBarrier with
          | true => rw [labelsBehind_barrier hbarrier, if_pos rfl, List.nil_append]
          | false => rw [labelsBehind_other hlabel hbarrier, if_neg Bool.false_ne_true]; rfl

end calls

namespace StepCall

variable {call : StepCall}

/-- A filter call adds one filter step, or a step of the name `has`. -/
theorem of_compileHas {step : Step} (hname : call.name.value = "has")
    (h : call.compileHas = .ok step) : HasForm call step ∧ step.labels = [] := by
  have hfilter : call.name.value ∈ filterNames := hname ▸ by decide
  unfold compileHas at h
  split at h
  · obtain ⟨key, -, h⟩ := Outcome.bind_eq_ok_iff.mp h
    cases h
    exact ⟨⟨rfl, by rw [isBarrier, hname]; rfl, fun _ => hname⟩, rfl⟩
  · obtain ⟨key, -, h⟩ := Outcome.bind_eq_ok_iff.mp h
    obtain ⟨predicate, -, h⟩ := Outcome.bind_eq_ok_iff.mp h
    cases h
    exact ⟨hfilter, rfl⟩
  · obtain ⟨label, -, h⟩ := Outcome.bind_eq_ok_iff.mp h
    obtain ⟨key, -, h⟩ := Outcome.bind_eq_ok_iff.mp h
    obtain ⟨predicate, -, h⟩ := Outcome.bind_eq_ok_iff.mp h
    cases h
    exact ⟨hfilter, rfl⟩
  · cases h

/-- What is added to some steps, where the same is added to none. -/
def Adds (call : StepCall) (steps result : Traversal) (alone : Compiled Traversal) : Prop :=
  ∃ step, result = steps ++ [step] ∧ HasForm call step ∧ step.labels = [] ∧ alone = .ok [step]

theorem adds_of_map {α : Type} {x : Compiled α} {f : α → Step} {steps result : Traversal}
    (hform : ∀ a, x = .ok a → HasForm call (f a) ∧ (f a).labels = [])
    (h : (x.map fun a => steps.push (f a)) = .ok result) :
    Adds call steps result (x.map fun a => Traversal.push [] (f a)) := by
  obtain ⟨a, rfl, rfl⟩ := Outcome.map_eq_ok_iff.mp h
  obtain ⟨hstep, hlabels⟩ := hform a rfl
  exact ⟨f a, rfl, hstep, hlabels, rfl⟩

/-- A call that is no `as` adds one step, whatever stands before it. -/
theorem adds_of_compile {steps result : Traversal} (hlabel : call.isLabel = false)
    (h : call.compile steps = .ok result) : Adds call steps result (call.compile []) := by
  have hfilter : ∀ name ∈ filterNames, call.name.value = name → ∀ containers labels,
      HasForm call (.has containers labels) := fun name hname heq _ _ => by
    rwa [HasForm, heq]
  unfold compile at h ⊢
  split at h
  · next hname => exact adds_of_map (fun step hstep => of_compileHas hname hstep) h
  · next hname => exact adds_of_map (fun p _ => ⟨hfilter _ (by decide) hname _ _, rfl⟩) h
  · next hname => exact adds_of_map (fun p _ => ⟨hfilter _ (by decide) hname _ _, rfl⟩) h
  · next hname => exact adds_of_map (fun p _ => ⟨hfilter _ (by decide) hname _ _, rfl⟩) h
  · next hname => exact adds_of_map (fun p _ => ⟨hfilter _ (by decide) hname _ _, rfl⟩) h
  · next hname =>
    split at h
    · cases h
    · next hcount =>
      cases h
      exact ⟨.barrier, rfl, by rw [HasForm, isBarrier, hname]; rfl, rfl, if_neg hcount⟩
  · next hname =>
    rw [isLabel, hname] at hlabel
    cases hlabel
  · next hhas hhasLabel hhasId hhasKey hhasValue hbarrier hother =>
    have hnot : call.name.value ∉ filterNames := by
      simpa [filterNames] using ⟨hhas, hhasLabel, hhasId, hhasKey, hhasValue⟩
    refine adds_of_map (fun arguments _ => ⟨?_, rfl⟩) h
    exact ⟨rfl, by simpa [isBarrier] using hbarrier, fun hfilters => absurd hfilters hnot⟩

/-- The labels of a call go to the last step that takes labels, in their order. -/
theorem labelAll_eq {front barriers : List Step} (hb : ∀ b ∈ barriers, b = .barrier) :
    ∀ {arguments : List Argument} {step : Step} {result : Traversal}, step.TakesLabels →
      call.labelAll (front ++ step :: barriers) arguments = .ok result →
        arguments.map Argument.string? = (arguments.filterMap Argument.string?).map some ∧
          result = front ++
            step.withLabels (step.labels ++ arguments.filterMap Argument.string?) :: barriers
  | [], step, result, _, h => by
      cases h
      rw [List.filterMap_nil, List.append_nil, Step.withLabels_labels]
      exact ⟨rfl, rfl⟩
  | argument :: arguments, step, result, hstep, h => by
      rw [labelAll] at h
      split at h
      · cases h
      · next label hargument =>
        have hstring : argument.string? = some label := by
          unfold stringArgument at hargument
          split at hargument
          · cases hargument
            rfl
          · cases hargument
        rw [Traversal.label_eq hstep hb] at h
        obtain ⟨hstrings, rfl⟩ := labelAll_eq hb (Step.takesLabels_withLabels hstep _) h
        rw [Step.labels_withLabels hstep, Step.withLabels_withLabels, List.map_cons,
          List.filterMap_cons, hstring, List.map_cons, hstrings, List.append_assoc]
        exact ⟨rfl, rfl⟩

theorem compile_label {front barriers : List Step} {step : Step} {result : Traversal}
    (hlabel : call.isLabel = true) (hstep : step.TakesLabels) (hb : ∀ b ∈ barriers, b = .barrier)
    (h : call.compile (front ++ step :: barriers) = .ok result) :
    call.arguments.map Argument.string? = call.labels.map some ∧
      result = front ++ step.withLabels (step.labels ++ call.labels) :: barriers := by
  have hname : call.name.value = "as" := of_decide_eq_true hlabel
  rw [labels, hlabel, if_pos rfl]
  simp only [compile, hname] at h
  split at h
  · cases h
  · exact labelAll_eq hb hstep h

end StepCall

/-! ## The steps of a traversal -/

section added

variable {call : StepCall} {calls : List StepCall} {added : Step}

/-- A barrier stands for the call that adds it, without labels. -/
theorem StandsFor.of_barrier (hform : HasForm call added) (hnone : added.labels = [])
    (halone : call.compile [] = .ok [added]) (hbarrier : call.isBarrier = true) :
    added = .barrier ∧ StandsFor (call, calls) added := by
  have hadded : added = .barrier := by
    by_contra hne
    rw [hform.takesLabels_iff.mp hne] at hbarrier
    cases hbarrier
  refine ⟨hadded, hform, ?_, by rw [hnone, hbarrier, if_pos rfl]⟩
  rw [halone, ← hnone, Step.withLabels_labels]

/-- Any other step stands for the call that adds it once it has the labels behind it. -/
theorem StandsFor.of_takesLabels (hform : HasForm call added) (hnone : added.labels = [])
    (halone : call.compile [] = .ok [added]) (hbarrier : call.isBarrier = false) :
    added.TakesLabels ∧ StandsFor (call, calls) (added.withLabels (labelsBehind calls)) := by
  have htakes : added.TakesLabels := hform.takesLabels_iff.mpr hbarrier
  refine ⟨htakes, hform.withLabels _, ?_, ?_⟩
  · rw [Step.withLabels_withLabels, halone, ← hnone, Step.withLabels_labels]
  · rw [Step.labels_withLabels htakes, hbarrier, if_neg Bool.false_ne_true]

end added

/-- What a run of calls adds, and where its labels go: the steps before end with one that takes
labels and barriers behind it. -/
theorem compileCalls_keeps :
    ∀ {calls : List StepCall} {front barriers : List Step} {step : Step} {result : Traversal},
      step.TakesLabels → (∀ b ∈ barriers, b = .barrier) →
      compileCalls (front ++ step :: barriers) calls = .ok result →
      ∃ made, result =
          front ++ step.withLabels (step.labels ++ labelsBehind calls) :: (barriers ++ made) ∧
        List.Forall₂ StandsFor (placed calls) made ∧
        ∀ call ∈ calls, call.isLabel = true →
          call.arguments.map Argument.string? = call.labels.map some
  | [], front, barriers, step, result, _, _, h => by
      cases h
      refine ⟨[], ?_, .nil, fun _ hcall => by cases hcall⟩
      rw [labelsBehind, List.takeWhile_nil, List.flatMap_nil, List.append_nil, List.append_nil,
        Step.withLabels_labels]
  | call :: calls, front, barriers, step, result, hstep, hb, h => by
      rw [compileCalls] at h
      split at h
      · cases h
      · next mid hmid =>
        cases hlabel : call.isLabel with
        | true =>
            obtain ⟨hstrings, rfl⟩ := StepCall.compile_label hlabel hstep hb hmid
            obtain ⟨made, rfl, hmade, hlabels⟩ :=
              compileCalls_keeps (Step.takesLabels_withLabels hstep _) hb h
            rw [placed, hlabel, if_pos rfl, labelsBehind_label hlabel,
              Step.labels_withLabels hstep, Step.withLabels_withLabels, List.append_assoc]
            exact ⟨made, rfl, hmade, List.forall_mem_cons.mpr ⟨fun _ => hstrings, hlabels⟩⟩
        | false =>
            obtain ⟨added, rfl, hform, hnone, halone⟩ := StepCall.adds_of_compile hlabel hmid
            rw [placed, hlabel, if_neg Bool.false_ne_true]
            have hstrings : call.isLabel = true →
                call.arguments.map Argument.string? = call.labels.map some := fun htrue => by
              rw [hlabel] at htrue
              cases htrue
            cases hbarrier : call.isBarrier with
            | true =>
                obtain ⟨hadded, hstands⟩ := StandsFor.of_barrier hform hnone halone hbarrier
                have hb' : ∀ b ∈ barriers ++ [added], b = .barrier := by
                  rw [List.forall_mem_append, List.forall_mem_singleton]
                  exact ⟨hb, hadded⟩
                rw [List.append_assoc, List.cons_append] at h
                obtain ⟨made, rfl, hmade, hlabels⟩ := compileCalls_keeps hstep hb' h
                rw [labelsBehind_barrier hbarrier]
                refine ⟨added :: made, ?_, .cons hstands hmade,
                  List.forall_mem_cons.mpr ⟨hstrings, hlabels⟩⟩
                rw [List.append_assoc, List.singleton_append]
            | false =>
                obtain ⟨htakes, hstands⟩ := StandsFor.of_takesLabels hform hnone halone hbarrier
                obtain ⟨made, rfl, hmade, hlabels⟩ :=
                  compileCalls_keeps htakes (fun _ hmem => by cases hmem) h
                rw [hnone, List.nil_append]
                refine ⟨added.withLabels (labelsBehind calls) :: made, ?_, .cons hstands hmade,
                  List.forall_mem_cons.mpr ⟨hstrings, hlabels⟩⟩
                rw [labelsBehind_other hlabel hbarrier, List.append_nil, Step.withLabels_labels,
                  List.append_assoc, List.cons_append, List.nil_append]

/-- The start of a traversal is a selection without labels. -/
theorem compileStart_eq_ok {start : StepCall} {steps : Traversal}
    (h : start.compileStart = .ok steps) :
    ∃ kind ids, steps = .select kind ids ∧ start.name.value = Step.selectName kind := by
  obtain ⟨ids, -, h⟩ := Outcome.bind_eq_ok_iff.mp h
  split at h
  · next hname =>
    cases h
    exact ⟨.vertex, ids.flatten, rfl, hname⟩
  · next hname =>
    cases h
    exact ⟨.edge, ids.flatten, rfl, hname⟩
  · cases h

/-- A compiled traversal starts with the selection that the start call asks for, and has after it
one step for each call that is no `as`, in their order: the step that the call alone is compiled
to. The arguments of the calls of `as` are strings, all of them are labels of the steps, in their
order, and each of them is a label of the last step before its `as` that is no barrier. -/
theorem compile_keeps_steps_and_labels {expr : TraversalExpr} {steps : Traversal}
    (h : compile expr = .ok steps) :
    ∃ kind ids rest,
      steps = .select kind ids (labelsBehind expr.steps) :: rest ∧
      expr.start.name.value = Step.selectName kind ∧
      expr.start.compileStart = .ok (.select kind ids) ∧
      rest.length = (expr.steps.filter fun call => !call.isLabel).length ∧
      List.Forall₂ StandsFor (placed expr.steps) rest ∧
      (∀ call ∈ expr.steps, call.isLabel = true →
        call.arguments.map Argument.string? = call.labels.map some) ∧
      steps.flatMap Step.labels = expr.steps.flatMap StepCall.labels := by
  unfold compile at h
  split at h
  · cases h
  · split at h
    · cases h
    · next first hfirst =>
      obtain ⟨kind, ids, rfl, hname⟩ := compileStart_eq_ok hfirst
      have htakes : (Step.select kind ids []).TakesLabels := Step.noConfusion
      have hnone : ∀ b ∈ ([] : List Step), b = .barrier := fun _ hmem => by cases hmem
      have hcalls : compileCalls ([] ++ .select kind ids [] :: []) expr.steps = .ok steps := h
      obtain ⟨rest, rfl, hrest, hlabels⟩ := compileCalls_keeps htakes hnone hcalls
      refine ⟨kind, ids, rest, rfl, hname, hfirst, ?_, hrest, hlabels, ?_⟩
      · rw [← hrest.length_eq, length_placed]
      · exact labels_of_standsFor hrest

/-- The tree of `g.V().as('a').barrier().as('b').has('age').as('c')`. -/
def labelledTree : TraversalExpr :=
  let call (name : String) (texts : List String) : StepCall :=
    ⟨⟨name, .at_ 0⟩, texts.map fun text => .literal ⟨.string text, .at_ 0⟩, .at_ 0⟩
  ⟨⟨"g", .at_ 0⟩, call "V" [], [call "as" ["a"], call "barrier" [], call "as" ["b"],
    call "has" ["age"], call "as" ["c"]], .at_ 0⟩

theorem compile_keeps_steps_and_labels_barrier :
    ∃ steps first rest, compile labelledTree = .ok steps ∧ steps = first :: rest ∧
      first.labels = ["a", "b"] ∧ rest.length = 2 ∧
      steps.flatMap Step.labels = ["a", "b", "c"] := by
  obtain ⟨kind, ids, rest, hsteps, -, -, hlength, -, -, hlabels⟩ :=
    compile_keeps_steps_and_labels (rfl : compile labelledTree = .ok _)
  exact ⟨_, _, rest, rfl, hsteps, rfl, hlength, hlabels⟩

end Language
end Pushdown
