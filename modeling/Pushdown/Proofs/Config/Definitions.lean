import Mathlib.Data.List.Infix
import Pushdown.Config.Basic
import Pushdown.Proofs.Entries.Names
import Pushdown.Proofs.Text.Parts

/-!
# Edge definitions as text

The text of an edge definition puts its names between a colon, an arrow, brackets and commas, and
does not quote them. Reading it trims them and drops the empty ones. So a definition is read back
from its text exactly if its names are free of what the reader takes for a separator.

## Results

* `EdgeDefinition.read?_eq_some_iff`: what is read from a text, by the parts it is cut into;
* `EdgeDefinition.of_read?`: what is read from any text;
* `EdgeDefinition.read?_text_iff`: which definitions are read back from their texts;
* `EdgeDefinition.ofText?_text`: those that were read from a text are.
-/

namespace Pushdown

/-- A name that a list in brackets gives back. -/
structure ListedName (name : String) : Prop where
  nonempty : name ≠ ""
  trimmed : Text.trim name.toList = name.toList
  noComma : ',' ∉ name.toList

instance (name : String) : Decidable (ListedName name) :=
  decidable_of_iff (name ≠ "" ∧ Text.trim name.toList = name.toList ∧ ',' ∉ name.toList)
    ⟨fun ⟨hne, htrim, hcomma⟩ => ⟨hne, htrim, hcomma⟩,
      fun ⟨hne, htrim, hcomma⟩ => ⟨hne, htrim, hcomma⟩⟩

namespace EdgeDefinition

/-- The arrow between the sources and the targets. -/
def arrow : List Char := ['-', '>']

/-- The names of a definition are told apart in its text. -/
structure Plain (definition : EdgeDefinition) : Prop where
  collectionNonempty : definition.collection ≠ ""
  collectionTrimmed : Text.trim definition.collection.toList = definition.collection.toList
  noColon : ':' ∉ definition.collection.toList
  sourcesNonempty : definition.sources ≠ .empty
  targetsNonempty : definition.targets ≠ .empty
  listed : ∀ name ∈ definition.sources.members ++ definition.targets.members, ListedName name
  noArrow : ∀ name ∈ definition.sources, ¬ arrow <:+: name.toList

instance (definition : EdgeDefinition) : Decidable definition.Plain :=
  decidable_of_iff
    ((definition.collection ≠ "" ∧
        Text.trim definition.collection.toList = definition.collection.toList ∧
        ':' ∉ definition.collection.toList) ∧
      (definition.sources ≠ .empty ∧ definition.targets ≠ .empty) ∧
      (∀ name ∈ definition.sources.members ++ definition.targets.members, ListedName name) ∧
      ∀ name ∈ definition.sources.members, ¬ arrow <:+: name.toList)
    ⟨fun ⟨⟨hne, htrim, hcolon⟩, ⟨hsources, htargets⟩, hlisted, harrow⟩ =>
        ⟨hne, htrim, hcolon, hsources, htargets, hlisted, harrow⟩,
      fun ⟨hne, htrim, hcolon, hsources, htargets, hlisted, harrow⟩ =>
        ⟨⟨hne, htrim, hcolon⟩, ⟨hsources, htargets⟩, hlisted, harrow⟩⟩

/-- The names of a list in brackets. -/
def namesOf (inner : List Char) : Names :=
  Names.ofList ((((Text.splitOn ',' inner).map Text.trim).filter fun name => !name.isEmpty).map
    String.ofList)

/-- Brackets around names. -/
def bracketed (names : List String) : List Char :=
  '[' :: ([','].intercalate (names.map String.toList) ++ [']'])

variable {definition : EdgeDefinition} {set : Names} {names : List String} {text inner : List Char}

theorem toList_text (definition : EdgeDefinition) :
    definition.text.toList =
      definition.collection.toList ++ ':' ::
        (bracketed definition.sources ++ arrow ++ bracketed definition.targets) := by
  simp [text, bracketed, arrow, String.toList_append, String.toList_intercalate]

theorem dropLast?_eq_some_iff {c : Char} :
    Text.dropLast? c text = some inner ↔ text = inner ++ [c] := by
  rw [Text.dropLast?]
  constructor
  · intro h
    split at h
    · next hlast =>
      cases h
      obtain ⟨before, rfl⟩ := List.getLast?_eq_some_iff.mp hlast
      rw [List.dropLast_concat]
    · cases h
  · rintro rfl
    rw [if_pos (by simp), List.dropLast_concat]

/-- What is read from a list in brackets. -/
theorem readNames?_eq_some_iff :
    readNames? text = some set ↔
      ∃ inner, Text.trim text = '[' :: (inner ++ [']']) ∧ set = namesOf inner := by
  rw [readNames?]
  constructor
  · intro h
    split at h
    · next rest htrim =>
      simp only [Option.bind_eq_bind, Option.bind_some] at h
      obtain ⟨inner, hinner, h⟩ := Option.bind_eq_some_iff.mp h
      cases h
      exact ⟨inner, by rw [htrim, dropLast?_eq_some_iff.mp hinner], rfl⟩
    · cases h
  · rintro ⟨inner, htrim, rfl⟩
    have hinner : Text.dropLast? ']' (inner ++ [']']) = some inner :=
      dropLast?_eq_some_iff.mpr rfl
    simp [htrim, hinner, namesOf]

/-- Names that are read from a list can be listed, and stand in it. -/
theorem listed_of_mem_namesOf {name : String} (h : name ∈ namesOf inner) :
    ListedName name ∧ name.toList <:+: inner := by
  rw [namesOf, Names.mem_ofList] at h
  obtain ⟨trimmed, htrimmed, rfl⟩ := List.mem_map.mp h
  obtain ⟨hmem, hnonempty⟩ := List.mem_filter.mp htrimmed
  obtain ⟨part, hpart, rfl⟩ := List.mem_map.mp hmem
  rw [String.toList_ofList]
  have hinner := Text.trim_infix part
  refine ⟨⟨?_, ?_, ?_⟩, hinner.trans (Text.infix_of_mem_splitOn hpart)⟩
  · intro hempty
    rw [← String.toList_inj, String.toList_ofList] at hempty
    rw [hempty] at hnonempty
    cases hnonempty
  · rw [String.toList_ofList, Text.trim_trim]
  · rw [String.toList_ofList]
    exact fun hc => Text.not_mem_of_mem_splitOn hpart (hinner.subset hc)

/-- Names that can be listed are read from their list. -/
theorem namesOf_intercalate (hne : set ≠ .empty) (h : ∀ name ∈ set, ListedName name) :
    namesOf ([','].intercalate (set.members.map String.toList)) = set := by
  obtain ⟨names, hset⟩ := set
  have hnames : names ≠ [] := fun hnil => hne (Names.ext hnil)
  have hsplit : Text.splitOn ',' ([','].intercalate (names.map String.toList)) =
      names.map String.toList := by
    refine Text.splitOn_intercalate (by simpa using hnames) fun part hpart => ?_
    obtain ⟨name, hname, rfl⟩ := List.mem_map.mp hpart
    exact (h name hname).noComma
  have htrim : (names.map String.toList).map Text.trim = names.map String.toList := by
    rw [List.map_map]
    exact List.map_congr_left fun name hname => (h name hname).trimmed
  have hfilter : ((names.map String.toList).filter fun name => !name.isEmpty) =
      names.map String.toList := by
    refine List.filter_eq_self.mpr fun part hpart => ?_
    obtain ⟨name, hname, rfl⟩ := List.mem_map.mp hpart
    have hnonempty := (h name hname).nonempty
    rw [ne_eq, ← String.toList_eq_nil_iff] at hnonempty
    simpa using hnonempty
  have hback : (names.map String.toList).map String.ofList = names := by simp
  rw [namesOf, hsplit, htrim, hfilter, hback]
  exact Names.ofList_members ⟨names, hset⟩

/-- Brackets are not blank. -/
theorem trim_bracketed (names : List String) : Text.trim (bracketed names) = bracketed names := by
  refine Text.trim_of_ends ?_ ?_
  · rintro d ⟨⟩
    decide
  · intro d hd
    rw [bracketed, ← List.cons_append, List.getLast?_concat, Option.mem_def,
      Option.some.injEq] at hd
    rw [← hd]
    decide

theorem readNames?_bracketed (names : List String) :
    readNames? (bracketed names) =
      some (namesOf ([','].intercalate (names.map String.toList))) :=
  readNames?_eq_some_iff.mpr ⟨_, trim_bracketed names, rfl⟩

/-- A text is cut at its first colon, and behind it at the first arrow. -/
structure CutAt (text collection sources targets : List Char) : Prop where
  text : text = collection ++ ':' :: (sources ++ arrow ++ targets)
  noColon : ':' ∉ collection
  noArrow : ¬ arrow <:+: (sources ++ arrow).dropLast

/-- What is read from a text, by the parts that it is cut into. -/
theorem read?_eq_some_iff :
    read? text = some definition ↔ ∃ collection sources targets,
      CutAt text collection sources targets ∧
      Text.trim collection = definition.collection.toList ∧ definition.collection ≠ "" ∧
      readNames? sources = some definition.sources ∧ definition.sources ≠ .empty ∧
      readNames? targets = some definition.targets ∧ definition.targets ≠ .empty := by
  constructor
  · intro h
    obtain ⟨⟨collection, rest⟩, hcolon, h⟩ := Option.bind_eq_some_iff.mp h
    obtain ⟨⟨before, after⟩, harrow, h⟩ := Option.bind_eq_some_iff.mp h
    dsimp only at h harrow
    obtain ⟨hcollection, htext⟩ := Text.splitAt?_eq_some_iff.mp hcolon
    obtain ⟨hrest, hfirst⟩ := (Text.splitAtText?_eq_some_iff (by decide)).mp harrow
    split at h
    · cases h
    · next hnonempty =>
      obtain ⟨sources, hsources, h⟩ := Option.bind_eq_some_iff.mp h
      obtain ⟨targets, htargets, h⟩ := Option.bind_eq_some_iff.mp h
      split at h
      · cases h
      · next hnames =>
        cases h
        rw [Bool.or_eq_true, not_or, Names.isEmpty_iff, Names.isEmpty_iff] at hnames
        rw [List.isEmpty_iff] at hnonempty
        refine ⟨collection, before, after, ⟨hrest ▸ htext, hcollection, hfirst⟩, ?_, ?_,
          hsources, hnames.1, htargets, hnames.2⟩
        · rw [String.toList_ofList]
        · intro hempty
          rw [← String.toList_inj, String.toList_ofList] at hempty
          exact hnonempty hempty
  · rintro ⟨collection, sources, targets, ⟨rfl, hcollection, hfirst⟩, hname, hnonempty, hsources,
      hsome, htargets, hsome'⟩
    have hcolon : Text.splitAt? ':' (collection ++ ':' :: (sources ++ arrow ++ targets)) =
        some (collection, sources ++ arrow ++ targets) :=
      Text.splitAt?_eq_some_iff.mpr ⟨hcollection, rfl⟩
    have harrow : Text.splitAtText? arrow (sources ++ arrow ++ targets) = some (sources, targets) :=
      (Text.splitAtText?_eq_some_iff (by decide)).mpr ⟨rfl, hfirst⟩
    rw [ne_eq, ← String.toList_eq_nil_iff] at hnonempty
    generalize sources ++ arrow ++ targets = rest at hcolon harrow
    rw [arrow] at harrow
    simp [read?, hcolon, harrow, hname, hnonempty, hsources, htargets, hsome, hsome']

/-- What is read from a text: the names are told apart in the text of what is read, and the sources
stand before the first arrow. -/
theorem of_read? (h : read? text = some definition) : definition.Plain := by
  obtain ⟨collection, before, after, hcut, hname, hnonempty, hsources, hsome, htargets, hsome'⟩ :=
    read?_eq_some_iff.mp h
  obtain ⟨first, hbefore, hfirst⟩ := readNames?_eq_some_iff.mp hsources
  obtain ⟨second, hafter, hsecond⟩ := readNames?_eq_some_iff.mp htargets
  refine ⟨hnonempty, ?_, ?_, hsome, hsome', ?_, ?_⟩
  · rw [← hname, Text.trim_trim]
  · rw [← hname]
    exact fun hc => hcut.noColon ((Text.trim_infix collection).subset hc)
  · intro name hlisted
    rw [hfirst, hsecond] at hlisted
    rcases List.mem_append.mp hlisted with hlisted | hlisted
    · exact (listed_of_mem_namesOf hlisted).1
    · exact (listed_of_mem_namesOf hlisted).1
  · -- an arrow in a source would stand before the first one
    intro name hlisted harrowed
    rw [hfirst] at hlisted
    have hinner : first <:+: before :=
      (show first <:+: '[' :: (first ++ [']']) from ⟨['['], [']'], by simp⟩).trans
        (hbefore ▸ Text.trim_infix before)
    refine hcut.noArrow ((harrowed.trans (listed_of_mem_namesOf hlisted).2).trans
      (hinner.trans ?_))
    exact ⟨[], ['-'], by simp [arrow]⟩

/-- No arrow is complete before the one behind the sources. -/
theorem not_arrow_bracketed (h : ∀ name ∈ names, ¬ arrow <:+: name.toList) :
    ¬ arrow <:+: (bracketed names ++ arrow).dropLast := by
  have hdrop : (bracketed names ++ arrow).dropLast =
      ('[' :: [','].intercalate (names.map String.toList)) ++ ']' :: ['-'] := by
    rw [bracketed, arrow, List.dropLast_append_of_ne_nil (by simp)]
    simp
  have hnames : ¬ arrow <:+: [','].intercalate (names.map String.toList) := by
    rw [Text.infix_intercalate_iff (by decide) (by decide)]
    rintro ⟨part, hpart, harrow⟩
    obtain ⟨name, hname, rfl⟩ := List.mem_map.mp hpart
    exact h name hname harrow
  have hopening : ¬ arrow <:+: '[' :: [','].intercalate (names.map String.toList) := by
    rw [← List.nil_append ('[' :: _), Text.infix_fence (by decide)]
    rintro (hnil | hin)
    · exact absurd (List.infix_nil.mp hnil) (by decide)
    · exact hnames hin
  rw [hdrop, Text.infix_fence (by decide)]
  rintro (hin | hlast)
  · exact hopening hin
  · exact absurd hlast.length_le (by decide)

/-- A definition is read back from its text exactly if its names are told apart there. -/
theorem read?_text_iff :
    read? definition.text.toList = some definition ↔ definition.Plain := by
  refine ⟨of_read?, fun h => read?_eq_some_iff.mpr ⟨definition.collection.toList,
    bracketed definition.sources, bracketed definition.targets,
    ⟨toList_text definition, h.noColon, not_arrow_bracketed h.noArrow⟩, h.collectionTrimmed,
    h.collectionNonempty, ?_, h.sourcesNonempty, ?_, h.targetsNonempty⟩⟩
  · rw [readNames?_bracketed, namesOf_intercalate h.sourcesNonempty
      fun name hname => h.listed name (List.mem_append_left _ hname)]
  · rw [readNames?_bracketed, namesOf_intercalate h.targetsNonempty
      fun name hname => h.listed name (List.mem_append_right _ hname)]

theorem ofText?_eq_ok_iff {text : String} :
    ofText? text = .ok definition ↔ read? text.toList = some definition := by
  rw [ofText?]
  cases read? text.toList <;> simp

/-- A definition that is read from any text is read again from the text that it is printed as. -/
theorem ofText?_text {text : String} (h : ofText? text = .ok definition) :
    ofText? definition.text = .ok definition := by
  rw [ofText?_eq_ok_iff] at h ⊢
  exact read?_text_iff.mpr (of_read? h)

/-- A text with blanks and an empty name, and with brackets, a colon and an arrow in names. -/
def bracketedText : String := "e : [b, a,,]:]->[ [x->y] ]"

/-- The definition that is read from it. -/
def bracketedNames : EdgeDefinition := ⟨"e", .ofList ["]:", "a", "b"], .single "[x->y]"⟩

theorem ofText?_text_bracketed :
    ofText? bracketedText = .ok bracketedNames ∧
      bracketedNames.text = "e:[]:,a,b]->[[x->y]]" ∧
      ofText? "e:[]:,a,b]->[[x->y]]" = .ok bracketedNames := by
  have hread : ofText? bracketedText = .ok bracketedNames := ofText?_eq_ok_iff.mpr (by decide)
  have htext : bracketedNames.text = "e:[]:,a,b]->[[x->y]]" := by decide
  exact ⟨hread, htext, htext ▸ ofText?_text hread⟩

end EdgeDefinition
end Pushdown
