import Pushdown.Proofs.Filter.Evaluation
import Pushdown.Proofs.Predicate.Total

/-!
# What pushed filters lose

A pushed filter may accept more than its predicate, since the rows are tested again. It must
not accept less. The one comparison for which it does is a strict ordering of two integers
that have one double: the host tells them apart and the store does not.

Everything else the host accepts, the store accepts. Negations are pushed over exact filters
only, where the store accepts nothing that the host refuses; weak orderings are pushed
together with an equality, which holds of the integers that a strict one misses.

## Results

* `Operator.holds_or_blurs`: what the host accepts by one operator, the store accepts or
  blurs;
* `Predicate.loses_only_blurred`: what a pushed predicate can lose, and when it loses it.
-/

namespace Pushdown

variable {nested : Value → Value → Bool} {document : Entries Value} {field : String}

namespace Operator

/-- The store blurs the strict ordering of a value and an operand. -/
def Blurs (value operand : Value) : Operator → Prop
  | lt => Value.Blurred value operand
  | gt => Value.Blurred operand value
  | _ => False

theorem ordered_iff {accept : Ordering → Bool} {value operand : Value} :
    ordered accept value operand = true ↔
      ∃ o, value.compare? operand = some o ∧ accept o = true := by
  unfold ordered
  split
  · next o h => simp [h]
  · next h => simp [h]

/-- What is less for the host is less or equal in the store. -/
theorem less_or_equal_in_store {a b : Value} (h : a.compare? b = some .lt) :
    Value.storeLess nested a b = true ∨ a.storeEquals b = true := by
  rcases Value.storeLess_or_blurred nested h with hless | hblurred
  · exact .inl hless
  · exact .inr (Value.storeEquals_of_doubles (Value.compareDoubles?_of_blurred hblurred))

/-- What is greater for the host is greater or equal in the store. -/
theorem greater_or_equal_in_store {a b : Value} (h : a.compare? b = some .gt) :
    Value.storeLess nested b a = true ∨ a.storeEquals b = true := by
  rcases Value.storeLess_or_blurred nested (Value.compare?_swap h)
    with hless | hblurred
  · exact .inl hless
  · have hdoubles := Value.compareDoubles?_swap (Value.compareDoubles?_of_blurred hblurred)
    exact .inr (Value.storeEquals_of_doubles hdoubles)

theorem storeEquals_of_ordered {a b : Value} (h : a.compare? b = some .eq) :
    a.storeEquals b = true :=
  Value.storeEquals_of_equals (Value.equals_of_compare? h)

/-- What a negated operator accepts, the negation of an exact filter accepts. -/
theorem holds_negate {f : Filter} (hpush : (Filter.negate f).isPushable = true)
    (h : f.support = .full → f.holds nested document = false) :
    (Filter.negate f).holds nested document = true := by
  obtain ⟨hfull, hnot⟩ := Filter.negate_of_isPushable hpush
  rw [hnot, Filter.holds, h hfull]
  rfl

theorem onText_flip {value : Value} {test : String → Bool} (h : onText false value test = true) :
    onText true value test = false := by
  cases value with
  | string text =>
      simp only [onText, beq_iff_eq] at h ⊢
      rw [h]
      rfl
  | null | bool | int32 | int64 | double | list | map => cases h

/-- A member of a list is one in the store. -/
theorem any_storeEquals_of_isMember {value : Value} {items : List Value}
    (h : isMember value items = true) : items.any value.storeEquals = true := by
  obtain ⟨item, hitem, heq⟩ := List.any_eq_true.mp h
  exact List.any_eq_true.mpr ⟨item, hitem, Value.storeEquals_of_equals heq⟩

/-- What is no member of an exact list is none in the store. -/
theorem any_storeEquals_eq_false {value : Value} :
    ∀ {items : List Value}, Support.joinAll (Value.supports items) = .full →
      isMember value items = false → items.any value.storeEquals = false
  | [], _, _ => rfl
  | item :: items, hfull, h => by
      rw [Value.supports, Support.joinAll_cons_eq_full_iff] at hfull
      rw [isMember, List.any_cons, Bool.or_eq_false_iff] at h
      rw [List.any_cons, Bool.or_eq_false_iff]
      refine ⟨Bool.eq_false_iff.mpr fun heq => ?_, any_storeEquals_eq_false hfull.2 h.2⟩
      exact Bool.eq_false_iff.mp h.1 (Value.equals_of_storeEquals hfull.1 heq)

/-- What the host accepts by one operator, the store accepts, or it blurs the operands. -/
theorem holds_or_blurs (nested : Value → Value → Bool) {op : Operator} {operand : Value}
    {f : Filter} (hf : op.filter field operand = .ok f) (hpush : f.isPushable = true)
    (htest : op.test (Filter.read document field) operand = .ok true) :
    f.holds nested document = true ∨ op.Blurs (Filter.read document field) operand := by
  cases op with
  | eq =>
      cases hf
      exact .inl (Value.storeEquals_of_equals (Except.ok.inj htest))
  | neq =>
      cases hf
      refine .inl (holds_negate hpush fun hfull => ?_)
      have hne := Except.ok.inj htest
      refine Bool.eq_false_iff.mpr fun heq => ?_
      rw [Value.equals_of_storeEquals hfull heq] at hne
      cases hne
  | lt =>
      cases hf
      obtain ⟨o, ho, haccept⟩ := ordered_iff.mp (Except.ok.inj htest)
      obtain rfl := beq_iff_eq.mp haccept
      exact Value.storeLess_or_blurred nested ho
  | gt =>
      cases hf
      obtain ⟨o, ho, haccept⟩ := ordered_iff.mp (Except.ok.inj htest)
      obtain rfl := beq_iff_eq.mp haccept
      exact Value.storeLess_or_blurred nested (Value.compare?_swap ho)
  | lte =>
      -- integers with one double that the strict half misses are equal in the store
      cases hf
      obtain ⟨o, ho, haccept⟩ := ordered_iff.mp (Except.ok.inj htest)
      refine .inl (Filter.holds_disjoin_pair ?_)
      cases o with
      | lt => exact less_or_equal_in_store ho
      | eq => exact .inr (storeEquals_of_ordered ho)
      | gt => cases haccept
  | gte =>
      cases hf
      obtain ⟨o, ho, haccept⟩ := ordered_iff.mp (Except.ok.inj htest)
      refine .inl (Filter.holds_disjoin_pair ?_)
      cases o with
      | gt => exact greater_or_equal_in_store ho
      | eq => exact .inr (storeEquals_of_ordered ho)
      | lt => cases haccept
  | within =>
      obtain ⟨items, hitems, rfl⟩ := Outcome.map_eq_ok_iff.mp hf
      obtain rfl := plannedList_eq_ok hitems
      exact .inl (any_storeEquals_of_isMember (Except.ok.inj htest))
  | without =>
      obtain ⟨items, hitems, rfl⟩ := Outcome.map_eq_ok_iff.mp hf
      obtain rfl := plannedList_eq_ok hitems
      refine .inl (holds_negate hpush fun hfull => ?_)
      have hout : isMember (Filter.read document field) items = false :=
        Bool.not_eq_true' _ ▸ Except.ok.inj htest
      exact any_storeEquals_eq_false hfull hout
  | containing | startingWith | endingWith =>
      obtain ⟨text, htext, rfl⟩ := Outcome.map_eq_ok_iff.mp hf
      obtain rfl := plannedText_eq_ok htext
      exact .inl (Except.ok.inj htest)
  | notContaining | notStartingWith | notEndingWith =>
      obtain ⟨text, htext, rfl⟩ := Outcome.map_eq_ok_iff.mp hf
      obtain rfl := plannedText_eq_ok htext
      exact .inl (holds_negate hpush fun _ => onText_flip (Except.ok.inj htest))
  | regex =>
      obtain ⟨pattern, hpattern, rfl⟩ := Outcome.map_eq_ok_iff.mp hf
      obtain ⟨rfl, r, hr⟩ := plannedPattern_eq_ok hpattern
      rw [test, patternOperand_string hr] at htest
      rw [Filter.holds, hr]
      exact .inl (Except.ok.inj htest)
  | notRegex =>
      obtain ⟨pattern, hpattern, rfl⟩ := Outcome.map_eq_ok_iff.mp hf
      obtain ⟨rfl, r, hr⟩ := plannedPattern_eq_ok hpattern
      rw [test, patternOperand_string hr] at htest
      refine .inl (holds_negate hpush fun _ => ?_)
      rw [Filter.holds, hr]
      exact onText_flip (Except.ok.inj htest)

end Operator

namespace Predicate

/-- The store blurs a comparison with a value; nothing is blurred where no value is. -/
def Blurs (op : String) (operand : Value) (value : Option Value) : Prop :=
  ∃ known stored, Operator.ofName? op = some known ∧ value = some stored ∧
    known.Blurs stored operand

/-- A document passes a predicate on a field, and the filter that is pushed for the predicate
does not accept it. -/
def Loses (nested : Value → Value → Bool) (field : String) (document : Entries Value)
    (p : Predicate) : Prop :=
  ∃ f, p.filter field = .ok f ∧ f.isPushable = true ∧
    p.test (Entries.find? field document) = .ok true ∧ f.holds nested document = false

/-- The filter of a predicate does not accept a document. -/
def Refuses (nested : Value → Value → Bool) (field : String) (document : Entries Value)
    (p : Predicate) : Prop :=
  ∃ f, p.filter field = .ok f ∧ f.holds nested document = false

/-- What passes a comparison, its filter accepts, or the store blurs the comparison. -/
theorem holds_or_blurs_compare {op : String} {operand : Value} {f : Filter}
    (hf : filterCompare field op operand = .ok f) (hpush : f.isPushable = true)
    (htest : testCompare op operand (Entries.find? field document) = .ok true) :
    f.holds nested document = true ∨ Blurs op operand (Entries.find? field document) := by
  obtain ⟨known, hop, hf⟩ := filterCompare_eq_ok hf
  rw [testCompare, hop] at htest
  cases hvalue : Entries.find? field document with
  | none =>
      rw [hvalue] at htest
      cases htest
  | some value =>
      have hread : Filter.read document field = value := by
        rw [Filter.read, hvalue]
        rfl
      rw [hvalue, ← hread] at htest
      rcases Operator.holds_or_blurs nested hf hpush htest with hholds | hblurs
      · exact .inl hholds
      · exact .inr ⟨known, value, hop, rfl, hread ▸ hblurs⟩

/-- What passes a predicate, its filter accepts, or the store blurs a comparison of the
predicate. -/
theorem holds_or_blurs {p : Predicate} {f : Filter} (hf : p.filter field = .ok f)
    (hpush : f.isPushable = true) (htest : p.test (Entries.find? field document) = .ok true) :
    f.holds nested document = true ∨
      ∃ op operand, p.Compares op operand ∧ Blurs op operand (Entries.find? field document) := by
  induction p using memberInduction generalizing f with
  | compare op operand =>
      rw [filter] at hf
      rw [test] at htest
      rcases holds_or_blurs_compare hf hpush htest with hholds | hblurs
      · exact .inl hholds
      · exact .inr ⟨op, operand, .leaf, hblurs⟩
  | all members ih =>
      obtain ⟨fs, hfs, rfl⟩ := filter_all_eq_ok hf
      rw [test, testAll_eq_true_iff] at htest
      -- a blurred comparison in any member settles it; without one, all members are accepted
      by_cases hblurred : ∃ p ∈ members, ∃ op operand, p.Compares op operand ∧
          Blurs op operand (Entries.find? field document)
      · obtain ⟨p, hp, op, operand, hcompares, hblurs⟩ := hblurred
        exact .inr ⟨op, operand, .all hp hcompares, hblurs⟩
      · refine .inl (Filter.holds_conjoin_iff.mpr fun g hg hgpush => ?_)
        obtain ⟨p, hp, hpg⟩ := mem_filters hfs hg
        rcases ih p hp hpg hgpush (htest p hp) with hholds | hblurs
        · exact hholds
        · exact (hblurred ⟨p, hp, hblurs⟩).elim
  | any members ih =>
      obtain ⟨fs, hfs, rfl⟩ := filter_any_eq_ok hf
      rw [test] at htest
      obtain ⟨p, hp, hpass⟩ := exists_of_testAny htest
      obtain ⟨g, hg, hpg⟩ := filter_of_mem hfs hp
      rcases ih p hp hpg (Filter.isPushable_of_disjoin hpush g hg) hpass with hholds | hblurs
      · exact .inl (Filter.holds_disjoin_of_mem hg hholds)
      · obtain ⟨op, operand, hcompares, hblurs⟩ := hblurs
        exact .inr ⟨op, operand, .any hp hcompares, hblurs⟩

/-- A known operator that a value passes and its filter refuses. -/
theorem loses_compare {op : String} {known : Operator} {operand value : Value} {f : Filter}
    (hop : Operator.ofName? op = some known) (hvalue : Entries.find? field document = some value)
    (hf : known.filter field operand = .ok f) (hpush : f.isPushable = true)
    (htest : known.test value operand = .ok true) (hholds : f.holds nested document = false) :
    Loses nested field document (.compare op operand) := by
  refine ⟨f, ?_, hpush, ?_, hholds⟩
  · rw [filter, filterCompare, hop]
    exact hf
  · rw [hvalue, test, testCompare, hop]
    exact htest

/-- A blurred comparison loses the document. -/
theorem loses_of_blurs {op : String} {operand : Value}
    (h : Blurs op operand (Entries.find? field document)) :
    Loses nested field document (.compare op operand) := by
  obtain ⟨known, value, hop, hvalue, hblurs⟩ := h
  have hpush : operand.support.isPushable = true := bne_iff_ne.mpr (Value.support_ne_none operand)
  have hread : Filter.read document field = value := by
    rw [Filter.read, hvalue]
    rfl
  cases known with
  | lt =>
      have hcompare := Value.compare?_of_blurred hblurs
      refine loses_compare hop hvalue rfl hpush ?_ ?_
      · exact congrArg Except.ok (Operator.ordered_iff.mpr ⟨.lt, hcompare, rfl⟩)
      · rw [Filter.holds, hread]
        exact Value.storeLess_of_blurred hblurs
  | gt =>
      have hcompare := Value.compare?_swap (Value.compare?_of_blurred hblurs)
      refine loses_compare hop hvalue rfl hpush ?_ ?_
      · exact congrArg Except.ok (Operator.ordered_iff.mpr ⟨.gt, hcompare, rfl⟩)
      · rw [Filter.holds, hread]
        exact Value.storeLess_of_blurred hblurs
  | eq | neq | lte | gte | within | without | containing | notContaining | startingWith
  | notStartingWith | endingWith | notEndingWith | regex | notRegex => cases hblurs

/-- A conjunction loses what it passes and a member loses. -/
theorem loses_all_iff {members : List Predicate} :
    Loses nested field document (.all members) ↔
      (∃ f, (Predicate.all members).filter field = .ok f) ∧
        (Predicate.all members).test (Entries.find? field document) = .ok true ∧
        ∃ p ∈ members, Loses nested field document p := by
  constructor
  · rintro ⟨f, hf, hpush, htest, hholds⟩
    refine ⟨⟨f, hf⟩, htest, ?_⟩
    obtain ⟨fs, hfs, rfl⟩ := filter_all_eq_ok hf
    rw [test, testAll_eq_true_iff] at htest
    by_cases hloses : ∃ p ∈ members, Loses nested field document p
    · exact hloses
    · -- every member whose filter is pushed is accepted, and so is the conjunction
      have hall : (Filter.conjoin fs).holds nested document = true := by
        refine Filter.holds_conjoin_iff.mpr fun g hg hgpush => ?_
        obtain ⟨p, hp, hpg⟩ := mem_filters hfs hg
        cases hrefused : g.holds nested document with
        | true => rfl
        | false => exact (hloses ⟨p, hp, g, hpg, hgpush, htest p hp, hrefused⟩).elim
      rw [hall] at hholds
      cases hholds
  · rintro ⟨⟨f, hf⟩, htest, p, hp, g, hpg, hgpush, -, hrefused⟩
    obtain ⟨fs, hfs, rfl⟩ := filter_all_eq_ok hf
    obtain ⟨g', hg, hpg'⟩ := filter_of_mem hfs hp
    cases hpg.symm.trans hpg'
    refine ⟨_, hf, Filter.isPushable_conjoin hg hgpush, htest, ?_⟩
    refine Bool.eq_false_iff.mpr fun hholds => ?_
    rw [Filter.holds_conjoin_iff.mp hholds g hg hgpush] at hrefused
    cases hrefused

/-- A disjunction loses what it passes and the filters of all members refuse. -/
theorem loses_any_iff {members : List Predicate} :
    Loses nested field document (.any members) ↔
      (∃ f, (Predicate.any members).filter field = .ok f ∧ f.isPushable = true) ∧
        (Predicate.any members).test (Entries.find? field document) = .ok true ∧
        ∀ p ∈ members, Refuses nested field document p := by
  constructor
  · rintro ⟨f, hf, hpush, htest, hholds⟩
    refine ⟨⟨f, hf, hpush⟩, htest, fun p hp => ?_⟩
    obtain ⟨fs, hfs, rfl⟩ := filter_any_eq_ok hf
    obtain ⟨g, hg, hpg⟩ := filter_of_mem hfs hp
    refine ⟨g, hpg, Bool.eq_false_iff.mpr fun hg' => ?_⟩
    rw [Filter.holds_disjoin_of_mem hg hg'] at hholds
    cases hholds
  · rintro ⟨⟨f, hf, hpush⟩, htest, hrefuses⟩
    refine ⟨f, hf, hpush, htest, Bool.eq_false_iff.mpr fun hholds => ?_⟩
    obtain ⟨fs, hfs, rfl⟩ := filter_any_eq_ok hf
    obtain ⟨g, hg, hg'⟩ := Filter.exists_of_holds_disjoin hpush hholds
    obtain ⟨p, hp, hpg⟩ := mem_filters hfs hg
    obtain ⟨g', hpg', hrefused⟩ := hrefuses p hp
    cases hpg.symm.trans hpg'
    rw [hg'] at hrefused
    cases hrefused

/-- What a pushed predicate loses, it loses at a strict ordering of two integers that the
store blurs. A single comparison loses a document just when it is such an ordering, a
conjunction just when it is passed and a member loses the document, and a disjunction just
when it is passed and every member has a filter that refuses the document. -/
theorem loses_only_blurred (nested : Value → Value → Bool) (field : String)
    (document : Entries Value) :
    (∀ p : Predicate, Loses nested field document p →
      ∃ op operand, p.Compares op operand ∧ Blurs op operand (Entries.find? field document)) ∧
    (∀ op operand, Loses nested field document (.compare op operand) ↔
      Blurs op operand (Entries.find? field document)) ∧
    (∀ members, Loses nested field document (.all members) ↔
      (∃ f, (Predicate.all members).filter field = .ok f) ∧
        (Predicate.all members).test (Entries.find? field document) = .ok true ∧
        ∃ p ∈ members, Loses nested field document p) ∧
    ∀ members, Loses nested field document (.any members) ↔
      (∃ f, (Predicate.any members).filter field = .ok f ∧ f.isPushable = true) ∧
        (Predicate.any members).test (Entries.find? field document) = .ok true ∧
        ∀ p ∈ members, Refuses nested field document p := by
  have htree : ∀ p : Predicate, Loses nested field document p →
      ∃ op operand, p.Compares op operand ∧
        Blurs op operand (Entries.find? field document) := by
    rintro p ⟨f, hf, hpush, htest, hholds⟩
    rcases holds_or_blurs hf hpush htest with hholds' | hblurs
    · rw [hholds] at hholds'
      cases hholds'
    · exact hblurs
  refine ⟨htree, fun op operand => ⟨fun hloses => ?_, loses_of_blurs⟩, fun _ => loses_all_iff,
    fun _ => loses_any_iff⟩
  obtain ⟨op', operand', hcompares, hblurs⟩ := htree _ hloses
  cases hcompares
  exact hblurs

/-- Two integers with one double, of which the store finds neither less. -/
theorem loses_below_blurred :
    Loses (fun _ _ => false) "f" [("f", .int64 9007199254740992)]
      (.compare "lt" (.int64 9007199254740993)) :=
  ⟨.lessThan "f" (.int64 9007199254740993), rfl, rfl, rfl, rfl⟩

/-- A conjunction that loses a document, and the comparison it loses it at. -/
theorem loses_only_blurred_conjunction :
    ∃ op operand, (Predicate.all [.compare "neq" (.string "x"),
        .compare "gt" (.int64 9007199254740992)]).Compares op operand ∧
      Blurs op operand (some (.int64 9007199254740993)) := by
  have h := (loses_only_blurred (fun _ _ => false) "f" [("f", .int64 9007199254740993)]).1
  refine h (.all [.compare "neq" (.string "x"), .compare "gt" (.int64 9007199254740992)]) ?_
  exact ⟨_, rfl, rfl, rfl, rfl⟩

end Predicate
end Pushdown
