import Pushdown.Proofs.Filter.Quoting
import Pushdown.Store.Memory

/-!
# Reading the names of a scan

The store takes for names what stands between a quote that follows `IN` and the next quote.
Each arm of a scan opens such a name, so reading finds at least as many names as there are arms,
whatever stands between the arms. It finds the names of the arms, and no other, when they hold
nothing that is escaped and no other name is opened, or one that is not closed.

## Results

* `Store.readNames_name`, `Store.readNames_unclosed`, `Store.readNames_of_no_opening`: reading
  from the first opening on;
* `Store.length_le_readNames`: at least a name for each arm;
* `Store.readNames_arms_iff`: when the names of the arms are read.
-/

namespace Pushdown
namespace Store

/-- What opens a name. -/
def opening : List Char := ['I', 'N', ' ', Filter.nameQuote]

/-- What stands before the quote of an opening. -/
def lead : List Char := ['I', 'N', ' ']

/-- The names that are read from a text. -/
def readNames (text : List Char) : List String := scannedNames (text.length + 1) text

variable {text before between after : List Char}

theorem quote_not_mem_lead : Filter.nameQuote ∉ lead := by decide

theorem no_opening_of_no_quote (h : Filter.nameQuote ∉ text) : ¬ opening <:+: text :=
  fun hopens => h (hopens.subset (by decide))

/-- An opening ends in a quote, so it does not reach into what is without one. -/
theorem opening_infix_append_iff (h : Filter.nameQuote ∉ after) :
    opening <:+: before ++ after ↔ opening <:+: before :=
  Text.infix_append_of_not_mem rfl h

/-- A text is cut at its first opening. -/
theorem splitAtText?_opening_iff :
    Text.splitAtText? opening text = some (before, after) ↔
      text = before ++ opening ++ after ∧ ¬ opening <:+: before := by
  have hdrop : (before ++ opening).dropLast = before ++ lead :=
    List.dropLast_append_of_ne_nil (by decide)
  rw [Text.splitAtText?_eq_some_iff (by decide), hdrop,
    opening_infix_append_iff quote_not_mem_lead]

/-- A text with openings has a first one. -/
theorem exists_first_opening (h : opening <:+: text) :
    ∃ before after, text = before ++ opening ++ after ∧ ¬ opening <:+: before := by
  cases hcut : Text.splitAtText? opening text with
  | none => exact absurd h ((Text.splitAtText?_eq_none_iff (by decide)).mp hcut)
  | some parts => exact ⟨parts.1, parts.2, splitAtText?_opening_iff.mp hcut⟩

theorem scannedNames_succ (fuel : Nat) (text : List Char) :
    scannedNames (fuel + 1) text =
      match Text.splitAtText? opening text with
      | none => []
      | some (_, rest) =>
          match Text.splitAt? Filter.nameQuote rest with
          | none => []
          | some (name, rest) => String.ofList name :: scannedNames fuel rest := rfl

/-- Reading does not depend on the fuel, if there is enough of it. -/
theorem scannedNames_eq_of_lt :
    ∀ {fuel fuel' : Nat} {text : List Char}, text.length < fuel → text.length < fuel' →
      scannedNames fuel text = scannedNames fuel' text
  | 0, _, _, h, _ => absurd h (Nat.not_lt_zero _)
  | _ + 1, 0, _, _, h => absurd h (Nat.not_lt_zero _)
  | fuel + 1, fuel' + 1, text, h, h' => by
      rw [scannedNames_succ, scannedNames_succ]
      cases hopen : Text.splitAtText? opening text with
      | none => rfl
      | some parts =>
          obtain ⟨before, rest⟩ := parts
          dsimp only
          cases hclose : Text.splitAt? Filter.nameQuote rest with
          | none => rfl
          | some parts =>
              obtain ⟨name, after⟩ := parts
              obtain ⟨rfl, -⟩ := splitAtText?_opening_iff.mp hopen
              obtain ⟨-, rfl⟩ := Text.splitAt?_eq_some_iff.mp hclose
              simp only [List.length_append, List.length_cons] at h h'
              have hrest : scannedNames fuel after = scannedNames fuel' after :=
                scannedNames_eq_of_lt (by omega) (by omega)
              dsimp only
              rw [hrest]

/-- Nothing is read where no name is opened. -/
theorem readNames_of_no_opening (h : ¬ opening <:+: text) : readNames text = [] := by
  rw [readNames, scannedNames_succ, (Text.splitAtText?_eq_none_iff (by decide)).mpr h]

/-- A name that is not closed is not read. -/
theorem readNames_unclosed (hbefore : ¬ opening <:+: before) (hafter : Filter.nameQuote ∉ after) :
    readNames (before ++ opening ++ after) = [] := by
  rw [readNames, scannedNames_succ, splitAtText?_opening_iff.mpr ⟨rfl, hbefore⟩]
  dsimp only
  cases hclose : Text.splitAt? Filter.nameQuote after with
  | none => rfl
  | some parts =>
      obtain ⟨-, rfl⟩ := Text.splitAt?_eq_some_iff.mp hclose
      exact absurd (List.mem_append_right _ List.mem_cons_self) hafter

/-- A name is read up to the first quote, and then what follows it. -/
theorem readNames_name {name : List Char} (hbefore : ¬ opening <:+: before)
    (hname : Filter.nameQuote ∉ name) :
    readNames (before ++ opening ++ (name ++ Filter.nameQuote :: after)) =
      String.ofList name :: readNames after := by
  rw [readNames, scannedNames_succ, splitAtText?_opening_iff.mpr ⟨rfl, hbefore⟩]
  dsimp only
  rw [Text.splitAt?_eq_some_iff.mpr ⟨hname, rfl⟩]
  dsimp only
  rw [readNames]
  congr 1
  refine scannedNames_eq_of_lt ?_ (Nat.lt_succ_self _)
  simp only [List.length_append, List.length_cons]
  omega

/-- Reading gets over an opening: some name is read, and reading goes on behind what may be a
part of that opening's name. -/
theorem readNames_over_opening (name : List Char) :
    ∀ before after : List Char, ∃ first names left,
      readNames (before ++ opening ++ (name ++ Filter.nameQuote :: after)) =
        first :: names ++ readNames (left ++ after) := by
  intro before
  induction hlen : before.length using Nat.strongRecOn generalizing before with
  | ind length ih =>
    intro after
    by_cases hbefore : opening <:+: before
    · obtain ⟨start, rest, rfl, hstart⟩ := exists_first_opening hbefore
      by_cases hclosed : Filter.nameQuote ∈ rest
      · -- a name that stands before the opening
        obtain ⟨earlier, rest, rfl, hearlier⟩ := List.eq_append_cons_of_mem hclosed
        obtain ⟨first, names, left, hread⟩ :=
          ih rest.length (by rw [← hlen]; simp; omega) rest rfl after
        refine ⟨String.ofList earlier, first :: names, left, ?_⟩
        rw [List.cons_append, ← hread, ← readNames_name hstart hearlier]
        simp only [List.append_assoc, List.cons_append]
      · -- the quote of the opening closes an earlier one
        have hearlier : Filter.nameQuote ∉ rest ++ lead := by
          rw [List.mem_append, not_or]
          exact ⟨hclosed, quote_not_mem_lead⟩
        refine ⟨String.ofList (rest ++ lead), [], name ++ [Filter.nameQuote], ?_⟩
        rw [List.append_assoc name, List.singleton_append, List.singleton_append,
          ← readNames_name hstart hearlier]
        simp [opening, lead]
    · by_cases hclosed : Filter.nameQuote ∈ name
      · obtain ⟨first, rest, rfl, hfirst⟩ := List.eq_append_cons_of_mem hclosed
        refine ⟨String.ofList first, [], rest ++ [Filter.nameQuote], ?_⟩
        rw [List.append_assoc rest, List.singleton_append, List.singleton_append,
          ← readNames_name hbefore hfirst]
        simp only [List.append_assoc, List.cons_append]
      · exact ⟨String.ofList name, [], [], readNames_name hbefore hclosed⟩

section Arms

/-- The arms of a scan: each opens a quoted name, and a clause follows. -/
def armsText (between clause post : List Char) : List String → List Char
  | [] => post
  | name :: names =>
      between ++ opening ++ (Filter.escapeName name.toList ++
        Filter.nameQuote :: (clause ++ armsText between clause post names))

/-- The first name that a clause opens is not closed. -/
def OpenEnded (clause : List Char) : Prop :=
  ∃ before after, clause = before ++ opening ++ after ∧ ¬ opening <:+: before ∧
    Filter.nameQuote ∉ after

variable {clause post : List Char}

/-- Whatever stands before the arms, at least as many names are read as there are arms. -/
theorem length_le_readNames (between clause post : List Char) :
    ∀ (names : List String) (before : List Char),
      names.length ≤ (readNames (before ++ armsText between clause post names)).length
  | [], _ => Nat.zero_le _
  | name :: names, before => by
      obtain ⟨first, others, left, hread⟩ := readNames_over_opening
        (Filter.escapeName name.toList) (before ++ between)
        (clause ++ armsText between clause post names)
      have harms : before ++ armsText between clause post (name :: names) =
          before ++ between ++ opening ++ (Filter.escapeName name.toList ++
            Filter.nameQuote :: (clause ++ armsText between clause post names)) := by
        simp only [armsText, List.append_assoc]
      have ih := length_le_readNames between clause post names (left ++ clause)
      rw [List.append_assoc] at ih
      rw [harms, hread, List.length_cons, List.length_append, List.length_cons]
      omega

/-- A quoted name is read back if it is plain: it ends at the first quote in it. -/
theorem readNames_quoted_iff {name : String} {names : List String}
    (hbefore : ¬ opening <:+: before) :
    readNames (before ++ opening ++ (Filter.escapeName name.toList ++
        Filter.nameQuote :: after)) = name :: names ↔
      Filter.PlainName name ∧ readNames after = names := by
  by_cases hquote : Filter.nameQuote ∈ Filter.escapeName name.toList
  · obtain ⟨first, rest, heq, hfirst⟩ := List.eq_append_cons_of_mem hquote
    rw [heq, List.append_assoc first, List.cons_append, readNames_name hbefore hfirst,
      List.cons.injEq, ← String.toList_inj, String.toList_ofList]
    rw [Filter.quote_mem_escapeName] at hquote
    constructor
    · rintro ⟨hname, -⟩
      exact absurd (hname ▸ hquote) hfirst
    · rintro ⟨hplain, -⟩
      exact absurd hquote hplain.1
  · rw [readNames_name hbefore hquote, List.cons.injEq, ← String.toList_inj,
      String.toList_ofList, Filter.escapeName_eq_self_iff]
    rfl

/-- The names of the arms are read back if the clause opens no name, and they are plain. -/
theorem readNames_quiet_iff (hclause : ¬ opening <:+: clause)
    (hbetween : Filter.nameQuote ∉ between) (hpost : Filter.nameQuote ∉ post) :
    ∀ names : List String,
      readNames (clause ++ armsText between clause post names) = names ↔
        ∀ name ∈ names, Filter.PlainName name
  | [] => by
      have hnone : ¬ opening <:+: clause ++ post := by
        rw [opening_infix_append_iff hpost]
        exact hclause
      simp [armsText, readNames_of_no_opening hnone]
  | name :: names => by
      have hstart : ¬ opening <:+: clause ++ between := by
        rw [opening_infix_append_iff hbetween]
        exact hclause
      rw [armsText, List.append_assoc between, ← List.append_assoc, ← List.append_assoc,
        readNames_quoted_iff hstart, readNames_quiet_iff hclause hbetween hpost names,
        List.forall_mem_cons]

/-- The first opening of a text is at one place. -/
theorem first_opening_unique {before' after' : List Char} (h : ¬ opening <:+: before)
    (h' : ¬ opening <:+: before')
    (heq : before ++ opening ++ after = before' ++ opening ++ after') :
    before = before' ∧ after = after' := by
  have hcut : Text.splitAtText? opening (before ++ opening ++ after) = some (before, after) :=
    splitAtText?_opening_iff.mpr ⟨rfl, h⟩
  rw [heq, splitAtText?_opening_iff.mpr ⟨rfl, h'⟩, Option.some.injEq, Prod.mk.injEq] at hcut
  exact ⟨hcut.1.symm, hcut.2.symm⟩

/-- Behind a name that ends as an opening starts, the start of the clause is read as a name. -/
theorem length_lt_readNames (between post : List Char) {stem : List Char}
    (hstem : Filter.nameQuote ∉ stem)
    (hclause : Filter.nameQuote ∈ clause) (names : List String) :
    names.length < (readNames (Filter.escapeName (stem ++ lead) ++
      Filter.nameQuote :: (clause ++ armsText between clause post names))).length := by
  have hlead : lead <:+ Filter.escapeName (stem ++ lead) := by
    rw [Filter.suffix_escapeName_iff quote_not_mem_lead (by decide)]
    exact List.suffix_append stem lead
  obtain ⟨start, hstart⟩ := hlead
  have hquote : Filter.nameQuote ∉ start ++ lead := by
    rw [hstart, Filter.quote_mem_escapeName, List.mem_append, not_or]
    exact ⟨hstem, quote_not_mem_lead⟩
  have hnone : ¬ opening <:+: start :=
    no_opening_of_no_quote fun h => hquote (List.mem_append_left lead h)
  obtain ⟨first, rest, rfl, hfirst⟩ := List.eq_append_cons_of_mem hclause
  have hread : ∀ arms, readNames (start ++ lead ++
        Filter.nameQuote :: (first ++ Filter.nameQuote :: rest ++ arms)) =
      String.ofList first :: readNames (rest ++ arms) := by
    intro arms
    rw [← readNames_name hnone hfirst]
    simp [opening, lead]
  rw [← hstart, hread, List.length_cons]
  exact Nat.lt_succ_of_le (length_le_readNames between _ post names rest)

/-- If the clause opens a name, the names of the arms are read back when there are none, and the
name is not closed. -/
theorem readNames_opened_iff (hclause : opening <:+: clause)
    (hbetween : Filter.nameQuote ∉ between) (hpost : Filter.nameQuote ∉ post)
    (names : List String) :
    readNames (clause ++ armsText between clause post names) = names ↔
      names = [] ∧ OpenEnded clause := by
  obtain ⟨start, rest, hcut, hstart⟩ := exists_first_opening hclause
  have hended : OpenEnded clause ↔ Filter.nameQuote ∉ rest := by
    constructor
    · rintro ⟨before, after, heq, hbefore, hafter⟩
      obtain ⟨-, rfl⟩ := first_opening_unique hbefore hstart (heq.symm.trans hcut)
      exact hafter
    · intro h
      exact ⟨start, rest, hcut, hstart, h⟩
  rw [hended]
  by_cases hclosed : Filter.nameQuote ∈ rest
  · -- a name of the clause is read, and then at least as many as there are arms
    obtain ⟨extra, left, rfl, hextra⟩ := List.eq_append_cons_of_mem hclosed
    have hread : ∀ arms, readNames (clause ++ arms) =
        String.ofList extra :: readNames (left ++ arms) := by
      intro arms
      rw [← readNames_name hstart hextra, hcut]
      simp only [List.append_assoc, List.cons_append]
    have hlength := length_le_readNames between clause post names left
    refine iff_of_false (fun h => ?_) (fun h => h.2 hclosed)
    rw [hread] at h
    have := congrArg List.length h
    rw [List.length_cons] at this
    omega
  · cases names with
    | nil =>
        have hread : readNames (clause ++ post) = [] := by
          rw [hcut, List.append_assoc _ rest]
          refine readNames_unclosed hstart ?_
          rw [List.mem_append, not_or]
          exact ⟨hclosed, hpost⟩
        simp [armsText, hread, hclosed]
    | cons name names =>
        -- the name that is read ends as an opening starts, so its quote opens one more
        have hearlier : Filter.nameQuote ∉ rest ++ between ++ lead := by
          simp only [List.mem_append, not_or]
          exact ⟨⟨hclosed, hbetween⟩, quote_not_mem_lead⟩
        have hread : ∀ arm, readNames (clause ++ (between ++ opening ++ arm)) =
            String.ofList (rest ++ between ++ lead) :: readNames arm := by
          intro arm
          rw [← readNames_name hstart hearlier, hcut]
          simp [opening, lead]
        refine iff_of_false (fun h => ?_) (by simp)
        rw [armsText, hread, List.cons.injEq] at h
        obtain ⟨rfl, h⟩ := h
        rw [String.toList_ofList] at h
        have hstem : Filter.nameQuote ∉ rest ++ between := fun hmem =>
          hearlier (List.mem_append_left lead hmem)
        have hlength := length_lt_readNames between post hstem (hclause.subset (by decide)) names
        rw [h] at hlength
        exact Nat.lt_irrefl _ hlength

/-- When the names of the arms are read. -/
theorem readNames_arms_iff {pre : List Char} (clause : List Char) (hpre : ¬ opening <:+: pre)
    (hbetween : Filter.nameQuote ∉ between) (hpost : Filter.nameQuote ∉ post) (name : String)
    (names : List String) :
    readNames (pre ++ opening ++ (Filter.escapeName name.toList ++
        Filter.nameQuote :: (clause ++ armsText between clause post names))) = name :: names ↔
      (∀ n ∈ name :: names, Filter.PlainName n) ∧
        (opening <:+: clause → names = [] ∧ OpenEnded clause) := by
  rw [readNames_quoted_iff hpre, List.forall_mem_cons, and_assoc]
  refine and_congr_right fun _ => ?_
  by_cases hclause : opening <:+: clause
  · rw [readNames_opened_iff hclause hbetween hpost]
    constructor
    · rintro ⟨rfl, hended⟩
      exact ⟨by simp, fun _ => ⟨rfl, hended⟩⟩
    · rintro ⟨-, hsettled⟩
      exact hsettled hclause
  · rw [readNames_quiet_iff hclause hbetween hpost]
    simp [hclause]

end Arms

end Store
end Pushdown
