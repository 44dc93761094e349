import Pushdown.Proofs.Json.Spelling
import Pushdown.Proofs.Number.Stepwise

/-!
# Documents that are written and arrive

The digits that are written for a finite double make a number of 64 bits, so the reader takes in
all of them. A document whose numbers can be written arrives with its fields in key order and with
each double as it is read step by step, unless it is nested too deep: then nothing arrives.

## Results

* `Json.rereads_stepwise`: what becomes of numbers that are written and read step by step;
* `Json.read?_compact`: what arrives of a document.
-/

namespace Pushdown

namespace Double

theorem readNat_append_cons (digits rest : List Char) (c : Char) :
    readNat (digits ++ c :: rest) = readNat ((digits ++ [c]) ++ rest) := by
  rw [List.append_assoc]
  rfl

/-- More digits do not make a number smaller. -/
theorem readNat_le_append (digits rest : List Char) :
    readNat digits ≤ readNat (digits ++ rest) := by
  induction rest generalizing digits with
  | nil => rw [List.append_nil]
  | cons c rest ih =>
      have hlast : readNat (digits ++ [c]) = 10 * readNat digits + digitValue c := by
        rw [readNat, List.foldl_append]
        rfl
      rw [readNat_append_cons]
      exact Nat.le_trans (by omega) (ih (digits ++ [c]))

/-- Digits of a number of 64 bits are all taken in. -/
theorem absorb_readNat {digits rest : List Char}
    (h : readNat (digits ++ rest) < 18446744073709551616) :
    absorb (readNat digits) rest = (readNat (digits ++ rest), []) := by
  induction rest generalizing digits with
  | nil => rw [absorb, List.append_nil]
  | cons c rest ih =>
      have hlast : 10 * readNat digits + digitValue c = readNat (digits ++ [c]) := by
        rw [readNat, readNat, List.foldl_append]
        rfl
      have hle := readNat_le_append (digits ++ [c]) rest
      rw [readNat_append_cons] at h ⊢
      rw [absorb, hlast, if_pos (by omega), ih h]

theorem ofDigits_eq (negative : Bool) {whole fraction : List Char} (power : Int)
    (h : readNat (whole ++ fraction) < 18446744073709551616) :
    ofDigits negative whole fraction power =
      ofParts negative (readNat (whole ++ fraction)) (power - fraction.length) := by
  have hshort : readNat ([] ++ whole) < 18446744073709551616 :=
    Nat.lt_of_le_of_lt (readNat_le_append whole fraction) h
  have hwhole : absorb 0 whole = (readNat whole, []) := absorb_readNat hshort
  rw [ofDigits, hwhole]
  dsimp only
  rw [absorb_readNat h]
  simp

end Double

namespace Json

/-- A finite double is read step by step from the decimal that is written for it. -/
theorem rereads_stepwise : NumberReading.Rereads stepwise Double.reread where
  int := stepwise_int
  double := by
    intro x hfinite
    obtain ⟨n, htext, hdenotes⟩ := exists_numeral hfinite
    have hdigits : readNat (n.whole ++ n.fraction) < 18446744073709551616 := by
      rw [hdenotes.coefficient_eq]
      exact Double.coefficient_written_lt hfinite
    have hnumber : numberStepwise x.negative n.whole n.fraction n.power =
        .double x.reread := by
      rw [numberStepwise, if_neg, Double.ofDigits_eq _ _ hdigits, hdenotes.coefficient_eq,
        hdenotes.power_eq]
      · rfl
      · rintro ⟨hfraction, hpower, -⟩
        exact hdenotes.notWhole.elim (fun hne => hne (List.isEmpty_iff.mp hfraction))
          fun hne => hne hpower
    refine ⟨n, htext, ?_⟩
    rw [stepwise, hnumber, finite?, if_pos (Double.isFinite_reread hfinite)]

mutual

/-- A document with other doubles is nested as deep. -/
theorem depth_mapDoubles (again : Double → Double) : ∀ json : Json,
    (json.mapDoubles again).depth = json.depth
  | null | bool _ | int _ | double _ | string _ => rfl
  | array items => by rw [mapDoubles, depth, depth, depth_mapDoublesItems again items]
  | object fields => by rw [mapDoubles, depth, depth, depth_mapDoublesFields again fields]

theorem depth_mapDoublesItems (again : Double → Double) : ∀ items : List Json,
    depthItems (mapDoublesItems again items) = depthItems items
  | [] => rfl
  | item :: items => by
      rw [mapDoublesItems, depthItems, depthItems, depth_mapDoubles again item,
        depth_mapDoublesItems again items]

theorem depth_mapDoublesFields (again : Double → Double) : ∀ fields : List (String × Json),
    depthFields (mapDoublesFields again fields) = depthFields fields
  | [] => rfl
  | (_, value) :: fields => by
      rw [mapDoublesFields, depthFields, depthFields, depth_mapDoubles again value,
        depth_mapDoublesFields again fields]

end

/-- A document that is not nested too deep arrives with its doubles as they are read step by step,
and no other one does. -/
theorem read?_compact {json : Json} (h : json.Writable) : read? json.compact =
    if json.depth ≤ depthLimit then some (json.mapDoubles Double.reread).ordered else none := by
  have hread := readWith?_of_spells (spells_compact rereads_stepwise h)
  rw [String.ofList_toList] at hread
  rw [read?, hread, Option.bind_some, depth_mapDoubles]

end Json
end Pushdown
