import Pushdown.Proofs.Language.Reading

/-!
# What the parser accepts

A part of the parser that succeeds took the tokens of a phrase of the grammar, and returns
its tree.

## Results

* `Parser.literal_sound`, `Parser.predicate_sound`, `Parser.argument_sound`,
  `Parser.call_sound`: the parts of a traversal;
* `Parser.traversal_sound`: a traversal, which is all there is.
-/

namespace Pushdown
namespace Language
namespace Parser

open Outcome Scanned

/-- A part of the parser takes only phrases, and returns their trees. -/
def Sound {α β : Type} (read : Scanned → Parsed (β × Scanned)) (bare : β → α)
    (derives : List Token → α → Prop) : Prop :=
  ∀ s x s', read s = .ok (x, s') → ∃ ts, s.Takes ts s' ∧ derives ts (bare x)

/-! ## Lists -/

theorem delimited_sound {α β : Type} {closing : Token}
    {item : Nat → Scanned → Parsed (β × Scanned)} {bare : β → α}
    {derives : List Token → α → Prop} {fuel : Nat} {first : Bool} {s s' : Scanned}
    {xs : List β} {stop : Span} (hitem : ∀ k < fuel, Sound (item k) bare derives)
    (h : delimited closing item fuel first s = .ok (xs, stop, s')) :
    ∃ ts, s.Takes (ts ++ [closing]) s' ∧ Listed derives first ts (xs.map bare) := by
  induction fuel generalizing first s xs with
  | zero => cases h
  | succ fuel ih =>
      rw [delimited, bind_eq_ok_iff] at h
      obtain ⟨⟨found, s₁⟩, hclose, h⟩ := h
      cases found with
      | some stop =>
          cases h
          obtain rfl := close_eq_some_iff.mp hclose
          exact ⟨[], .single _ _, .nil⟩
      | none =>
          obtain ⟨⟨x, s₂⟩, hx, h⟩ := bind_eq_ok_iff.mp h
          obtain ⟨⟨ys, stop, s₃⟩, hys, h⟩ := bind_eq_ok_iff.mp h
          cases h
          obtain ⟨ts, hts, hderives⟩ := hitem fuel (Nat.lt_succ_self fuel) _ _ _ hx
          obtain ⟨us, hus, hlisted⟩ := ih (fun k hk => hitem k (Nat.lt_succ_of_lt hk)) hys
          refine ⟨separator first ++ (ts ++ us), ?_, .cons hderives hlisted⟩
          simpa using (takes_of_close hclose).append (hts.append hus)

/-! ## Literals -/

theorem mapEntry_sound {fuel : Nat}
    (h : Sound (literal fuel) Literal.bareItem Bare.Literal.Derives) :
    Sound (mapEntry fuel) Literal.bareEntry Bare.Literal.EntryDerives := by
  rintro s entry s' hentry
  obtain ⟨⟨key, s₁⟩, hkey, hentry⟩ := bind_eq_ok_iff.mp hentry
  obtain ⟨⟨colon, s₂⟩, hcolon, hentry⟩ := bind_eq_ok_iff.mp hentry
  obtain ⟨⟨value, s₃⟩, hvalue, hentry⟩ := bind_eq_ok_iff.mp hentry
  cases hentry
  obtain ⟨token, htoken, hname⟩ := takes_of_mapKey hkey
  obtain ⟨ts, hts, hderives⟩ := h _ _ _ hvalue
  exact ⟨token :: .colon :: ts, htoken.append ((takes_of_expect hcolon).append hts),
    .intro hname hderives⟩

theorem literal_sound (fuel : Nat) :
    Sound (literal fuel) Literal.bareItem Bare.Literal.Derives := by
  induction fuel using Nat.strongRecOn with
  | ind fuel ih =>
  rintro s l s' hread
  cases fuel with
  | zero => cases hread
  | succ fuel =>
  -- each item of a list or map is read with a fuel of its own, so all smaller ones are needed
  have ih : ∀ k < fuel, Sound (literal k) Literal.bareItem Bare.Literal.Derives := fun k hk =>
    ih k (Nat.lt_succ_of_lt hk)
  obtain ⟨⟨⟨token, span⟩, s₁⟩, hnext, h⟩ := bind_eq_ok_iff.mp hread
  obtain rfl := next_eq_ok_iff.mp hnext
  cases token with
  | nullWord =>
      cases h
      exact ⟨_, .single _ _, .null⟩
  | trueWord =>
      cases h
      exact ⟨_, .single _ _, .true⟩
  | falseWord =>
      cases h
      exact ⟨_, .single _ _, .false⟩
  | int value =>
      cases h
      exact ⟨_, .single _ _, .int value⟩
  | float value =>
      cases h
      exact ⟨_, .single _ _, .float value⟩
  | string quote value =>
      cases h
      exact ⟨_, .single _ _, .string quote value⟩
  | leftBracket =>
      obtain ⟨⟨items, stop, s₂⟩, hitems, h⟩ := bind_eq_ok_iff.mp h
      cases h
      rw [literals_eq_delimited] at hitems
      obtain ⟨ts, hts, hlisted⟩ := delimited_sound ih hitems
      refine ⟨_, .cons _ hts, ?_⟩
      rw [Literal.bareItem, Literal.bare, Literal.bareItems_eq]
      exact .list hlisted
  | leftBrace =>
      obtain ⟨⟨entries, stop, s₂⟩, hentries, h⟩ := bind_eq_ok_iff.mp h
      cases h
      rw [mapEntries_eq_delimited] at hentries
      obtain ⟨ts, hts, hlisted⟩ := delimited_sound (fun k hk => mapEntry_sound (ih k hk)) hentries
      refine ⟨_, .cons _ hts, ?_⟩
      rw [Literal.bareItem, Literal.bare, Literal.bareEntries_eq]
      exact .map hlisted
  | _ => cases h

/-! ## Predicates -/

theorem predicateName_sound :
    Sound predicateName Spanned.value Bare.Predicate.NameDerives := by
  rintro s name s' h
  obtain ⟨⟨word, s₁⟩, hword, h⟩ := bind_eq_ok_iff.mp h
  dsimp only at h
  split at h
  · next hqualifier =>
      obtain ⟨⟨found, s₂⟩, hdot, h⟩ := bind_eq_ok_iff.mp h
      cases found with
      | some dot =>
          obtain ⟨⟨qualified, s₃⟩, hqualified, h⟩ := bind_eq_ok_iff.mp h
          cases h
          exact ⟨[.ident word.value, .dot, .ident qualified.value],
            (takes_of_word hword).append ((takes_of_eat hdot).append (takes_of_word hqualified)),
            .qualified (by simpa [qualifiers] using hqualifier) _⟩
      | none =>
          cases h
          obtain ⟨rfl, -⟩ := eat_eq_none_iff.mp hdot
          exact ⟨_, takes_of_word hword, .plain _⟩
  · cases h
    exact ⟨_, takes_of_word hword, .plain _⟩

theorem predicateCall_sound (fuel : Nat) :
    Sound (predicateCall fuel) PredicateExpr.bare Bare.Predicate.CallDerives := by
  rintro s p s' h
  obtain ⟨⟨name, s₁⟩, hname, h⟩ := bind_eq_ok_iff.mp h
  obtain ⟨⟨opening, s₂⟩, hopening, h⟩ := bind_eq_ok_iff.mp h
  obtain ⟨⟨arguments, stop, s₃⟩, harguments, h⟩ := bind_eq_ok_iff.mp h
  cases h
  rw [literals_eq_delimited] at harguments
  obtain ⟨ns, hns, hderives⟩ := predicateName_sound _ _ _ hname
  obtain ⟨ts, hts, hlisted⟩ := delimited_sound (fun k _ => literal_sound k) harguments
  refine ⟨_, ?_, .intro hderives hlisted⟩
  exact hns.append ((takes_of_expectWith hopening).append hts)

theorem joined_eq_ok {left right p : PredicateExpr} {word : Spanned String}
    (h : joined left word right = .ok p) :
    ∃ connective : Bare.Connective, word.value = connective.word ∧
      p.bare = left.bare.join (connective, right.bare) := by
  rw [joined] at h
  split at h
  · next hword =>
      cases h
      exact ⟨.and, hword, rfl⟩
  · split at h
    · next hword =>
        cases h
        exact ⟨.or, hword, rfl⟩
    · cases h

mutual

theorem predicate_sound : ∀ fuel : Nat,
    Sound (predicate fuel) PredicateExpr.bare Bare.Predicate.Derives
  | 0, _, _, _, h => by cases h
  | fuel + 1, s, p, s', h => by
      rw [predicate, bind_eq_ok_iff] at h
      obtain ⟨⟨left, s₁⟩, hleft, h⟩ := h
      obtain ⟨ts, hts, hderives⟩ := predicateCall_sound fuel _ _ _ hleft
      obtain ⟨us, links, hus, hlinks, hp⟩ := connected_sound fuel left _ _ _ h
      exact ⟨ts ++ us, hts.append hus, hp ▸ .intro hderives hlinks⟩

theorem connected_sound : ∀ (fuel : Nat) (left : PredicateExpr) (s : Scanned) (p : PredicateExpr)
    (s' : Scanned), connected fuel left s = .ok (p, s') →
    ∃ us links, s.Takes us s' ∧ Star Bare.Predicate.LinkDerives us links ∧
      p.bare = links.foldl Bare.Predicate.join left.bare
  | 0, _, _, _, _, h => by cases h
  | fuel + 1, left, s, p, s', h => by
      rw [connected, bind_eq_ok_iff] at h
      obtain ⟨⟨found, s₁⟩, hdot, h⟩ := h
      cases found with
      | none =>
          cases h
          obtain ⟨rfl, -⟩ := eat_eq_none_iff.mp hdot
          exact ⟨[], [], .nil _, .nil, rfl⟩
      | some dot =>
          obtain ⟨⟨word, s₂⟩, hword, h⟩ := bind_eq_ok_iff.mp h
          obtain ⟨⟨opening, s₃⟩, hopening, h⟩ := bind_eq_ok_iff.mp h
          obtain ⟨⟨right, s₄⟩, hright, h⟩ := bind_eq_ok_iff.mp h
          obtain ⟨⟨closing, s₅⟩, hclosing, h⟩ := bind_eq_ok_iff.mp h
          obtain ⟨both, hboth, h⟩ := bind_eq_ok_iff.mp h
          obtain ⟨connective, hconnective, hjoin⟩ := joined_eq_ok hboth
          obtain ⟨ts, hts, hderives⟩ := predicate_sound fuel _ _ _ hright
          obtain ⟨us, links, hus, hlinks, hp⟩ := connected_sound fuel both _ _ _ h
          refine ⟨_, (connective, right.bare) :: links, ?_,
            .cons (.intro connective hderives) hlinks, ?_⟩
          · have hlink := (takes_of_eat hdot).append ((takes_of_word hword).append
              ((takes_of_expect hopening).append (hts.append (takes_of_expect hclosing))))
            simpa [hconnective] using hlink.append hus
          · rw [hp, hjoin, List.foldl_cons]

end

/-! ## Calls -/

theorem argument_sound (fuel : Nat) :
    Sound (argument fuel) Argument.bare Bare.Argument.Derives := by
  rintro s a s' h
  obtain ⟨next, -, h⟩ := bind_eq_ok_iff.mp h
  split at h
  · obtain ⟨⟨p, s₁⟩, hp, h⟩ := bind_eq_ok_iff.mp h
    cases h
    obtain ⟨ts, hts, hderives⟩ := predicate_sound fuel _ _ _ hp
    exact ⟨ts, hts, .predicate hderives⟩
  · obtain ⟨⟨l, s₁⟩, hl, h⟩ := bind_eq_ok_iff.mp h
    cases h
    obtain ⟨ts, hts, hderives⟩ := literal_sound fuel _ _ _ hl
    exact ⟨ts, hts, .literal hderives⟩

theorem call_sound (fuel : Nat) : Sound (call fuel) StepCall.bare Bare.Call.Derives := by
  rintro s c s' h
  obtain ⟨⟨name, s₁⟩, hname, h⟩ := bind_eq_ok_iff.mp h
  obtain ⟨⟨opening, s₂⟩, hopening, h⟩ := bind_eq_ok_iff.mp h
  obtain ⟨⟨arguments, stop, s₃⟩, harguments, h⟩ := bind_eq_ok_iff.mp h
  cases h
  rw [arguments_eq_delimited] at harguments
  obtain ⟨ts, hts, hlisted⟩ := delimited_sound (fun k _ => argument_sound k) harguments
  exact ⟨.ident name.value :: .leftParen :: (ts ++ [.rightParen]),
    (takes_of_word hname).append ((takes_of_expectWith hopening).append hts), .intro _ hlisted⟩

theorem calls_sound (fuel : Nat) :
    Sound (calls fuel) (List.map StepCall.bare) (Star (After .dot Bare.Call.Derives)) := by
  induction fuel with
  | zero =>
      rintro s steps s' h
      cases h
  | succ fuel ih =>
      rintro s steps s' h
      rw [calls, bind_eq_ok_iff] at h
      obtain ⟨⟨found, s₁⟩, hdot, h⟩ := h
      cases found with
      | none =>
          cases h
          obtain ⟨rfl, -⟩ := eat_eq_none_iff.mp hdot
          exact ⟨[], .nil _, .nil⟩
      | some dot =>
          obtain ⟨⟨step, s₂⟩, hstep, h⟩ := bind_eq_ok_iff.mp h
          obtain ⟨⟨steps, s₃⟩, hsteps, h⟩ := bind_eq_ok_iff.mp h
          cases h
          obtain ⟨ts, hts, hderives⟩ := call_sound fuel _ _ _ hstep
          obtain ⟨us, hus, hrest⟩ := ih _ _ _ hsteps
          exact ⟨.dot :: ts ++ us, ((takes_of_eat hdot).append hts).append hus,
            .cons (.intro hderives) hrest⟩

theorem traversal_sound {s : Scanned} {expr : TraversalExpr} (h : traversal s = .ok expr) :
    Bare.Traversal.Derives s.kinds expr.bare := by
  obtain ⟨⟨source, s₁⟩, hsource, h⟩ := bind_eq_ok_iff.mp h
  obtain ⟨⟨dot, s₂⟩, hdot, h⟩ := bind_eq_ok_iff.mp h
  obtain ⟨⟨start, s₃⟩, hstart, h⟩ := bind_eq_ok_iff.mp h
  obtain ⟨⟨steps, s₄⟩, hsteps, h⟩ := bind_eq_ok_iff.mp h
  obtain ⟨next, hnext, h⟩ := bind_eq_ok_iff.mp h
  cases next with
  | some tok => cases h
  | none =>
      cases h
      obtain ⟨ts, hts, hderives⟩ := call_sound _ _ _ _ hstart
      obtain ⟨us, hus, hrest⟩ := calls_sound _ _ _ _ hsteps
      have htakes := (takes_of_word hsource).append
        ((takes_of_expect hdot).append (hts.append hus))
      have hend : s₄.kinds = [] := by
        rw [kinds, (peek?_eq_ok_none_iff.mp hnext).1, List.map_nil]
      rw [htakes.kinds_eq, hend, List.append_nil]
      have hwhole := Bare.Traversal.Derives.intro source.value hderives hrest
      exact hwhole

end Parser
end Language
end Pushdown
