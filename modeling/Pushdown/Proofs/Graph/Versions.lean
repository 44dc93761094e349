import Pushdown.Proofs.Graph.Reopening
import Pushdown.Proofs.Text.Parts

/-!
# The version of a graph

Opening a graph reads the version that its document of variables holds, and goes on only if that is
none of a newer library. A version is read from the start of the text: three numbers, each a zero
or the longest run of digits from another one on. The reader takes digits of any script into a run,
and then refuses those beyond ASCII. So a version runs on where such a digit stands behind its last
number, and is refused although it is there.

## Results

* `Version.ofText?_eq_some_iff`: the version at the start of a text;
* `checkVersion_of_leads`, `checkVersion_of_refused`: the answers of the gate;
* `Graph.opened_of_stored`: a graph is opened through the gate;
* `Graph.unchanged_of_fromGate`: a graph that is stopped there is left alone;
* `Graph.gate_iff`: when the gate answers by the version at the start of the text;
* `Graph.not_gated_of_arabic_digit`: a version that runs on.
-/

namespace Pushdown
namespace Version

/-- Some digits at the start of a text are a number of a version: a zero, or the longest run of
digits, which starts with another one. It is below 2 to the power of 64. -/
structure IsNumber (digits rest : List Char) : Prop where
  written : digits = ['0'] ∨
    (∃ c ∈ digits.head?, c ≠ '0') ∧ (∀ c ∈ digits, c.isDigit = true) ∧
      ∀ c ∈ rest.head?, c.isDigit = false
  fits : readNat digits < 18446744073709551616

/-- A text starts with three numbers with points between them. -/
structure Starts (text major minor patch rest : List Char) : Prop where
  text : text = major ++ '.' :: (minor ++ '.' :: (patch ++ rest))
  major : IsNumber major ('.' :: (minor ++ '.' :: (patch ++ rest)))
  minor : IsNumber minor ('.' :: (patch ++ rest))
  patch : IsNumber patch rest

/-- A text starts with a version. -/
def Leads (version : Version) (text : String) : Prop :=
  ∃ major minor patch rest, Starts text.toList major minor patch rest ∧
    version = ⟨readNat major, readNat minor, readNat patch⟩

/-- A run of digits goes on with digits of any script. -/
def GoesOn (digits rest : List Char) : Prop :=
  digits ≠ ['0'] ∧ ∃ c ∈ rest.head?, Unicode.isDecimalDigit c = true

/-- A text starts with a version whose last number goes on with digits of another script. -/
def RunsOn (text : String) : Prop :=
  ∃ major minor patch rest, Starts text.toList major minor patch rest ∧ GoesOn patch rest

/-- The numbers of a version, in the order in which versions are compared. -/
def numbers (version : Version) : List Nat := [version.major, version.minor, version.patch]

theorem compare_eq_gt_iff {version other : Version} :
    version.compare other = .gt ↔ other.numbers < version.numbers := by
  simp only [compare, numbers, List.cons_lt_cons_iff, Ordering.then_eq_gt,
    Nat.compare_eq_gt, Nat.compare_eq_eq, List.not_lt_nil, and_false, or_false]
  omega

variable {text digits rest major minor patch : List Char}

theorem isDigit_eq_false {c : Char} (h : Unicode.isDecimalDigit c = false) : c.isDigit = false := by
  cases hc : c.isDigit with
  | false => rfl
  | true =>
      rw [Unicode.isDecimalDigit_of_isDigit hc] at h
      cases h

/-- A number is read off the text that starts with it. -/
theorem IsNumber.digits_eq (h : IsNumber digits rest) :
    digits = if (digits ++ rest).head? = some '0' then ['0']
      else (digits ++ rest).takeWhile Char.isDigit := by
  rcases h.written with rfl | ⟨⟨c, hc, hzero⟩, hdigits, hrest⟩
  · rfl
  · have hhead : (digits ++ rest).head? = some c := by
      rw [List.head?_append, Option.mem_def.mp hc]
      rfl
    rw [hhead, if_neg (by simpa using hzero), (Text.span_append hdigits hrest).1]

/-- A text starts with one number at most. -/
theorem IsNumber.unique {digits' rest' : List Char} (h : IsNumber digits rest)
    (h' : IsNumber digits' rest') (heq : digits ++ rest = digits' ++ rest') :
    digits = digits' ∧ rest = rest' := by
  have hdigits : digits = digits' := by rw [h.digits_eq, h'.digits_eq, heq]
  refine ⟨hdigits, ?_⟩
  rwa [hdigits, List.append_cancel_left_eq] at heq

/-- A text starts with one version at most. -/
theorem Starts.unique {major' minor' patch' rest' : List Char}
    (h : Starts text major minor patch rest) (h' : Starts text major' minor' patch' rest') :
    major = major' ∧ minor = minor' ∧ patch = patch' ∧ rest = rest' := by
  obtain ⟨rfl, hminor⟩ := h.major.unique h'.major (h.text.symm.trans h'.text)
  rw [List.cons.injEq] at hminor
  obtain ⟨rfl, hpatch⟩ := h.minor.unique h'.minor hminor.2
  rw [List.cons.injEq] at hpatch
  obtain ⟨rfl, rfl⟩ := h.patch.unique h'.patch hpatch.2
  exact ⟨rfl, rfl, rfl, rfl⟩

/-! ## Reading a version -/

/-- A number is read where it does not go on with other digits. -/
theorem readPart?_eq_some_iff {n : Nat} :
    readPart? text = some (n, rest) ↔
      ∃ digits, text = digits ++ rest ∧ IsNumber digits rest ∧ ¬ GoesOn digits rest ∧
        n = readNat digits := by
  constructor
  · intro h
    cases text with
    | nil => cases h
    | cons c text =>
      rw [readPart?] at h
      split at h
      · next hc =>
        cases h
        exact ⟨['0'], by rw [hc]; rfl, ⟨.inl rfl, by decide⟩, fun hgoes => hgoes.1 rfl, rfl⟩
      · next hc =>
        split at h
        · dsimp only at h
          split at h
          · next hread =>
            cases h
            obtain ⟨hdigits, hfits⟩ := hread
            rw [List.all_eq_true] at hdigits
            have hstop : ∀ d ∈ (text.dropWhile Unicode.isDecimalDigit).head?,
                Unicode.isDecimalDigit d = false := fun d => Text.head?_dropWhile
            refine ⟨c :: text.takeWhile Unicode.isDecimalDigit, ?_, ⟨.inr ⟨?_, hdigits, ?_⟩, hfits⟩,
              ?_, rfl⟩
            · rw [List.cons_append, List.takeWhile_append_dropWhile]
            · exact ⟨c, rfl, hc⟩
            · exact fun d hd => isDigit_eq_false (hstop d hd)
            · rintro ⟨-, d, hd, hdigit⟩
              rw [hstop d hd] at hdigit
              cases hdigit
          · cases h
        · cases h
  · rintro ⟨digits, rfl, ⟨hwritten, hfits⟩, hstops, rfl⟩
    rcases hwritten with rfl | ⟨⟨c, hc, hzero⟩, hdigits, -⟩
    · rfl
    · obtain ⟨digits, rfl⟩ := List.head?_eq_some_iff.mp hc
      rw [List.forall_mem_cons] at hdigits
      have hne : c :: digits ≠ ['0'] := fun heq => hzero (List.cons.inj heq).1
      have hstop : ∀ d ∈ rest.head?, Unicode.isDecimalDigit d = false := fun d hd =>
        Bool.eq_false_iff.mpr fun hdigit => hstops ⟨hne, d, hd, hdigit⟩
      obtain ⟨htake, hdrop⟩ := Text.span_append
        (fun d hd => Unicode.isDecimalDigit_of_isDigit (hdigits.2 d hd)) hstop
      have hall : (c :: digits).all Char.isDigit = true :=
        List.all_eq_true.mpr (List.forall_mem_cons.mpr hdigits)
      rw [List.cons_append, readPart?, if_neg hzero, if_pos hdigits.1, htake, hdrop]
      dsimp only
      rw [if_pos ⟨hall, hfits⟩]

theorem afterPoint?_eq_some_iff : afterPoint? text = some rest ↔ text = '.' :: rest := by
  rw [afterPoint?.eq_def]
  split <;> simp_all

theorem not_goesOn_point : ¬ GoesOn digits ('.' :: rest) := by
  rintro ⟨-, c, ⟨⟩, hdigit⟩
  revert hdigit
  decide

/-- The version at the start of a text is read unless its last number goes on with other digits. -/
theorem ofText?_eq_some_iff {text : String} {version : Version} :
    ofText? text = some version ↔ version.Leads text ∧ ¬ RunsOn text := by
  constructor
  · intro h
    obtain ⟨⟨a, behindMajor⟩, hreadMajor, h⟩ := Option.bind_eq_some_iff.mp h
    obtain ⟨fromMinor, hpoint, h⟩ := Option.bind_eq_some_iff.mp h
    obtain ⟨⟨b, behindMinor⟩, hreadMinor, h⟩ := Option.bind_eq_some_iff.mp h
    obtain ⟨fromPatch, hpoint', h⟩ := Option.bind_eq_some_iff.mp h
    obtain ⟨⟨c, rest⟩, hreadPatch, h⟩ := Option.bind_eq_some_iff.mp h
    cases h
    obtain rfl := afterPoint?_eq_some_iff.mp hpoint
    obtain rfl := afterPoint?_eq_some_iff.mp hpoint'
    obtain ⟨major, htext, hmajor, -, rfl⟩ := readPart?_eq_some_iff.mp hreadMajor
    obtain ⟨minor, rfl, hminor, -, rfl⟩ := readPart?_eq_some_iff.mp hreadMinor
    obtain ⟨patch, rfl, hpatch, hstops, rfl⟩ := readPart?_eq_some_iff.mp hreadPatch
    have hstarts : Starts text.toList major minor patch rest := ⟨htext, hmajor, hminor, hpatch⟩
    refine ⟨⟨major, minor, patch, rest, hstarts, rfl⟩, ?_⟩
    rintro ⟨major', minor', patch', rest', hstarts', hgoes⟩
    obtain ⟨-, -, rfl, rfl⟩ := hstarts.unique hstarts'
    exact hstops hgoes
  · rintro ⟨⟨major, minor, patch, rest, hstarts, rfl⟩, hstops⟩
    have hpatch : readPart? (patch ++ rest) = some (readNat patch, rest) :=
      readPart?_eq_some_iff.mpr ⟨patch, rfl, hstarts.patch,
        fun hgoes => hstops ⟨major, minor, patch, rest, hstarts, hgoes⟩, rfl⟩
    have hminor : readPart? (minor ++ '.' :: (patch ++ rest)) =
        some (readNat minor, '.' :: (patch ++ rest)) :=
      readPart?_eq_some_iff.mpr ⟨minor, rfl, hstarts.minor, not_goesOn_point, rfl⟩
    have hmajor : readPart? text.toList =
        some (readNat major, '.' :: (minor ++ '.' :: (patch ++ rest))) :=
      readPart?_eq_some_iff.mpr ⟨major, hstarts.text, hstarts.major, not_goesOn_point, rfl⟩
    simp [ofText?, hmajor, afterPoint?, hminor, hpatch]

end Version

/-! ## The gate -/

section checkVersion

variable {stored : String}

theorem checkVersion_of_leads {version : Version} (h : version.Leads stored)
    (hstops : ¬ Version.RunsOn stored) :
    checkVersion stored =
      if libraryVersionNumbers.numbers < version.numbers then
        .error (.incompatibleVersion stored libraryVersion)
      else .ok () := by
  rw [checkVersion, Version.ofText?_eq_some_iff.mpr ⟨h, hstops⟩]
  exact if_congr Version.compare_eq_gt_iff rfl rfl

/-- A text is refused without a version at its start, or with one that runs on. -/
theorem checkVersion_of_refused
    (h : ∀ version : Version, version.Leads stored → Version.RunsOn stored) :
    checkVersion stored = .error (.invalidVersion stored) := by
  have hnone : Version.ofText? stored = none := by
    rw [Option.eq_none_iff_forall_ne_some]
    intro version hread
    obtain ⟨hleads, hstops⟩ := Version.ofText?_eq_some_iff.mp hread
    exact hstops (h version hleads)
  rw [checkVersion, hnone]

end checkVersion

/-- An error of the gate. -/
def GraphError.FromGate : GraphError → Prop
  | .incompatibleVersion _ _ | .invalidVersion _ => True
  | _ => False

variable {raw config : GraphConfig} {s s' : Store}

theorem GraphAction.not_fromGate_of_onStore {α : Type} {action : StoreAction Store α}
    {e : GraphError} (h : onStore action s = (.error e, s')) : ¬ e.FromGate := by
  unfold onStore at h
  split at h
  · cases h
  · cases h
    exact id

namespace Graph

/-- What opening a graph does behind the gate: it writes the variables back, with the version of the
library. -/
def admitted (config : GraphConfig) (vars : GraphVariables) : GraphAction Store Graph := do
  storeVariables { vars with version := libraryVersion }
  pure ⟨config⟩

theorem not_fromGate_of_storeVariables {vars : GraphVariables} {e : GraphError}
    (h : storeVariables vars s = (.error e, s')) : ¬ e.FromGate := by
  rcases of_bind_eq_error h with h | ⟨assigned, mid, -, h⟩
  · exact GraphAction.not_fromGate_of_onStore h
  · cases h

theorem not_fromGate_of_createVariables {e : GraphError}
    (h : createVariables config s = (.error e, s')) : ¬ e.FromGate := by
  rcases of_bind_eq_error h with h | ⟨assigned, mid, -, h⟩
  · exact GraphAction.not_fromGate_of_onStore h
  · cases h

theorem not_fromGate_of_admitted {vars : GraphVariables} {e : GraphError}
    (h : admitted config vars s = (.error e, s')) : ¬ e.FromGate := by
  rcases of_bind_eq_error h with h | ⟨u, mid, -, h⟩
  · exact not_fromGate_of_storeVariables h
  · cases h

/-- Behind the gate a graph is opened. -/
theorem admitted_eq_ok {vars : GraphVariables} (hkey : vars.key = config.graph)
    (h : (s.document? variablesCollection config.graph).isSome = true) :
    (admitted config vars s).1 = .ok ⟨config⟩ := by
  obtain ⟨last, hstored, -⟩ := storeVariables_eq { vars with version := libraryVersion } hkey h
  rw [admitted, GraphAction.bind_apply, hstored]
  rfl

/-- A graph with a document of variables is opened through the gate. -/
theorem opened_of_stored {document : Json} {vars : GraphVariables}
    (hvalid : raw.validate = .ok config)
    (hstored : s.document? variablesCollection config.graph = some document)
    (hread : GraphVariables.ofDocument config document = .ok vars) :
    opened raw s =
      (result (checkVersion vars.version) >>= fun _ => admitted config vars : GraphAction Store _)
        (Store.ensureCollection variablesCollection s).2 := by
  have hload : (loadVariables config : GraphAction Store _)
      (Store.ensureCollection variablesCollection s).2 =
        (.ok (some vars), (Store.ensureCollection variablesCollection s).2) := by
    rw [loadVariables_apply, Store.document?_of_same rfl, hstored]
    dsimp only
    rw [hread]
    rfl
  rw [opened_eq hvalid, GraphAction.bind_apply, initVariables_apply rfl hload]
  dsimp only
  rw [GraphAction.bind_apply, GraphAction.pure_apply]
  dsimp only
  rw [GraphAction.bind_apply, GraphAction.bind_apply, result]
  cases checkVersion vars.version with
  | error e => rfl
  | ok u =>
      dsimp only
      rw [admitted, GraphAction.bind_apply]

/-- Nothing is written where the gate stops. -/
theorem eq_of_stopped {vars : GraphVariables} {e : GraphError}
    (h : (result (checkVersion vars.version) >>= fun _ =>
      storeVariables { vars with version := libraryVersion } : GraphAction Store Unit) s =
        (.error e, s'))
    (he : e.FromGate) : s' = s ∧ checkVersion vars.version = .error e := by
  rcases of_bind_eq_error h with h | ⟨u, mid, -, h⟩
  · exact ⟨eq_of_result h, congrArg Prod.fst h⟩
  · exact absurd he (not_fromGate_of_storeVariables h)

theorem unchanged_of_initVariables {e : GraphError}
    (h : initVariables config s = (.error e, s')) (he : e.FromGate) (c k : String) :
    s'.document? c k = s.document? c k := by
  rcases of_bind_eq_error h with hensure | ⟨u, ensured, hensure, h⟩
  · cases hensure
  have hsame : ensured.document? c k = s.document? c k := by
    cases hensure
    exact Store.document?_of_same rfl c k
  rcases of_bind_eq_error h with hload | ⟨loaded, last, hload, h⟩
  · rw [loadVariables_apply] at hload
    rw [← (Prod.mk.inj hload).2, hsame]
  rw [loadVariables_apply] at hload
  obtain rfl := (Prod.mk.inj hload).2
  cases loaded with
  | some vars =>
      rcases of_bind_eq_error h with hpure | ⟨vars, last, hpure, h⟩
      · cases hpure
      · cases hpure
        rw [(eq_of_stopped h he).1, hsame]
  | none =>
      rcases of_bind_eq_error h with hcreate | ⟨vars, created, hcreate, h⟩
      · exact absurd he (not_fromGate_of_createVariables hcreate)
      · -- the version of a new document is that of the library
        obtain ⟨rfl, -⟩ := remembering_of_createVariables hcreate
        have hstopped := (eq_of_stopped h he).2
        rw [checkVersion_libraryVersion] at hstopped
        cases hstopped

/-- A graph that is stopped at the gate is left alone, with all documents of the store. -/
theorem unchanged_of_fromGate {e : GraphError} (h : opened raw s = (.error e, s'))
    (he : e.FromGate) (c k : String) : s'.document? c k = s.document? c k := by
  rcases of_bind_eq_error h with hinvalid | ⟨config, mid, hvalid, h⟩
  · rw [eq_of_result hinvalid]
  · obtain ⟨-, rfl⟩ := result_eq_ok_iff.mp hvalid
    rcases of_bind_eq_error h with h | ⟨u, last, -, hpure⟩
    · exact unchanged_of_initVariables h he c k
    · cases hpure

/-- The gate answers by the version at the start of the text: an older version or the library's
passes, a newer one does not, and a text without one is invalid. -/
structure Gated (raw config : GraphConfig) (vars : GraphVariables) (s : Store) : Prop where
  passes : ∀ version : Version, version.Leads vars.version →
    ¬ libraryVersionNumbers.numbers < version.numbers →
      opened raw s = admitted config vars (Store.ensureCollection variablesCollection s).2
  newer : ∀ version : Version, version.Leads vars.version →
    libraryVersionNumbers.numbers < version.numbers →
      (opened raw s).1 = .error (.incompatibleVersion vars.version libraryVersion)
  invalid : (∀ version : Version, ¬ version.Leads vars.version) →
    (opened raw s).1 = .error (.invalidVersion vars.version)

section stored

variable {document : Json} {vars : GraphVariables}

theorem opened_of_refused (hvalid : raw.validate = .ok config)
    (hstored : s.document? variablesCollection config.graph = some document)
    (hread : GraphVariables.ofDocument config document = .ok vars)
    (h : ∀ version : Version, version.Leads vars.version → Version.RunsOn vars.version) :
    (opened raw s).1 = .error (.invalidVersion vars.version) := by
  rw [opened_of_stored hvalid hstored hread, checkVersion_of_refused h]
  rfl

theorem gated_of_not_runsOn (hvalid : raw.validate = .ok config)
    (hstored : s.document? variablesCollection config.graph = some document)
    (hread : GraphVariables.ofDocument config document = .ok vars)
    (hstops : ¬ Version.RunsOn vars.version) : Gated raw config vars s where
  passes version hleads holder := by
    rw [opened_of_stored hvalid hstored hread, checkVersion_of_leads hleads hstops,
      if_neg holder]
    rfl
  newer version hleads hnewer := by
    rw [opened_of_stored hvalid hstored hread, checkVersion_of_leads hleads hstops,
      if_pos hnewer]
    rfl
  invalid hnone := opened_of_refused hvalid hstored hread fun version hleads =>
    absurd hleads (hnone version)

/-- Where a version runs on, it is refused as if it were none. -/
theorem not_runsOn_of_gated (hvalid : raw.validate = .ok config)
    (hstored : s.document? variablesCollection config.graph = some document)
    (hread : GraphVariables.ofDocument config document = .ok vars)
    (h : Gated raw config vars s) : ¬ Version.RunsOn vars.version := by
  intro hruns
  have hrefused := opened_of_refused hvalid hstored hread fun _ _ => hruns
  obtain ⟨major, minor, patch, rest, hstarts, -⟩ := hruns
  have hleads : Version.Leads ⟨readNat major, readNat minor, readNat patch⟩ vars.version :=
    ⟨major, minor, patch, rest, hstarts, rfl⟩
  by_cases hnewer : libraryVersionNumbers.numbers <
      Version.numbers ⟨readNat major, readNat minor, readNat patch⟩
  · rw [h.newer _ hleads hnewer] at hrefused
    cases hrefused
  · rw [h.passes _ hleads hnewer] at hrefused
    exact not_fromGate_of_admitted (Prod.ext hrefused rfl) trivial

end stored

/-- A graph with a document of variables is opened by any configuration. The gate answers by the
version at the start of the stored text if and only if that version does not run on in digits of
another script; then the text is invalid. Behind the gate the graph is opened, and a graph that
is stopped there leaves all documents as they were. -/
theorem gate_iff (raw : GraphConfig) (s : Store) :
    (∀ config document vars, raw.validate = .ok config →
      s.document? variablesCollection config.graph = some document →
      GraphVariables.ofDocument config document = .ok vars →
        (Gated raw config vars s ↔ ¬ Version.RunsOn vars.version) ∧
        (Version.RunsOn vars.version →
          (opened raw s).1 = .error (.invalidVersion vars.version)) ∧
        (vars.key = config.graph →
          (admitted config vars (Store.ensureCollection variablesCollection s).2).1 =
            .ok ⟨config⟩)) ∧
      ∀ e s', opened raw s = (.error e, s') → e.FromGate →
        ∀ c k, s'.document? c k = s.document? c k := by
  refine ⟨fun config document vars hvalid hstored hread => ⟨?_, fun hruns => ?_, fun hkey => ?_⟩,
    fun e s' h he => unchanged_of_fromGate h he⟩
  · exact ⟨not_runsOn_of_gated hvalid hstored hread, gated_of_not_runsOn hvalid hstored hread⟩
  · exact opened_of_refused hvalid hstored hread fun _ _ => hruns
  · refine admitted_eq_ok hkey ?_
    rw [Store.document?_of_same rfl, hstored]
    rfl

/-- A store that holds the variables of a graph as some version of the library left them. -/
def versioned (version : String) : Store :=
  (Store.insert variablesCollection
    (.object [("_key", .string "tinkerpop"), (versionField, .string version)]) Store.empty).2

theorem gate_iff_released :
    Gated GraphConfig.initial GraphConfig.standard ⟨"tinkerpop", "0.1.0-rc1", []⟩
        (versioned "0.1.0-rc1") ∧
      (opened GraphConfig.initial (versioned "0.1.0-rc1")).1 = .ok ⟨GraphConfig.standard⟩ ∧
      ∃ s', opened GraphConfig.initial (versioned "0.2.0") =
          (.error (.incompatibleVersion "0.2.0" "0.1.0"), s') ∧
        ∀ c k, s'.document? c k = (versioned "0.2.0").document? c k := by
  obtain ⟨hleads, hstops⟩ := Version.ofText?_eq_some_iff.mp
    (by decide : Version.ofText? "0.1.0-rc1" = some ⟨0, 1, 0⟩)
  obtain ⟨hgate, -⟩ := gate_iff GraphConfig.initial (versioned "0.1.0-rc1")
  obtain ⟨hgated, -, hopens⟩ := hgate GraphConfig.standard _ ⟨"tinkerpop", "0.1.0-rc1", []⟩
    GraphConfig.validate_initial rfl rfl
  obtain ⟨-, hunchanged⟩ := gate_iff GraphConfig.initial (versioned "0.2.0")
  refine ⟨hgated.mpr hstops, ?_, _, rfl, hunchanged _ _ rfl trivial⟩
  rw [(hgated.mpr hstops).passes _ hleads (by decide)]
  exact hopens rfl

/-- A text that starts with a version before the library's is refused, because a digit of another
script stands behind it. -/
theorem not_gated_of_arabic_digit :
    Version.Leads ⟨0, 0, 1⟩ "0.0.1٣" ∧
      ¬ libraryVersionNumbers.numbers < Version.numbers ⟨0, 0, 1⟩ ∧
      (opened GraphConfig.initial (versioned "0.0.1٣")).1 = .error (.invalidVersion "0.0.1٣") ∧
      ¬ Gated GraphConfig.initial GraphConfig.standard ⟨"tinkerpop", "0.0.1٣", []⟩
        (versioned "0.0.1٣") := by
  have hstarts : Version.Starts "0.0.1٣".toList ['0'] ['0'] ['1'] ['٣'] := by
    refine ⟨by decide, ⟨.inl rfl, by decide⟩, ⟨.inl rfl, by decide⟩, ?_⟩
    exact ⟨.inr ⟨⟨'1', rfl, by decide⟩, by decide, by decide⟩, by decide⟩
  have hruns : Version.RunsOn "0.0.1٣" :=
    ⟨_, _, _, _, hstarts, by decide, '٣', rfl, by decide⟩
  refine ⟨⟨_, _, _, _, hstarts, rfl⟩, by decide, rfl, fun hgated => ?_⟩
  exact not_runsOn_of_gated GraphConfig.validate_initial rfl rfl hgated hruns

end Graph
end Pushdown
