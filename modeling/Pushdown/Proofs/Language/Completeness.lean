import Pushdown.Proofs.Language.Soundness

/-!
# What the parser finds

On the tokens of a phrase each part of the parser succeeds, stops where the phrase stops,
and returns its tree. One token of fuel for each token of a phrase suffices, and one more
for a chain, which the parser leaves only at its end.

A predicate goes on at a point, so what stands behind a phrase must not be one. In an
argument it is a comma or a parenthesis.

## Results

* `Parser.literal_complete`, `Parser.predicate_complete`, `Parser.argument_complete`,
  `Parser.call_complete`: the parts of a traversal;
* `Parser.traversal_eq_ok_iff`: what `traversal` accepts, and which trees it returns.
-/

namespace Pushdown
namespace Language
namespace Parser

open Outcome Scanned

/-- A part of the parser finds every phrase of at most some length, where no point stands
behind it, and returns its tree. -/
def Complete {α β : Type} (bound : Nat) (read : Scanned → Parsed (β × Scanned)) (bare : β → α)
    (derives : List Token → α → Prop) : Prop :=
  ∀ s ts s' a, ts.length ≤ bound → s.Takes ts s' → s'.Lacks .dot → derives ts a →
    ∃ x, read s = .ok (x, s') ∧ bare x = a

/-! ## Lists -/

section Lists

variable {α β : Type} {closing : Token} {derives : List Token → α → Prop}

/-- Behind an item of a list stands a comma or what closes the list. -/
theorem lacks_dot_of_listed {s s' : Scanned} {ts : List Token} {as : List α}
    (hclosing : Bare.Closing closing) (htakes : s.Takes (ts ++ [closing]) s')
    (h : Listed derives false ts as) : s.Lacks .dot := by
  rcases h.eq_nil_or_cons with ⟨rfl, -⟩ | ⟨ts, us, a, as, rfl, -, -, -⟩
  · refine htakes.lacks ?_
    rintro rfl
    simp [Bare.Closing] at hclosing
  · have hcomma : s.Takes (.comma :: (ts ++ us ++ [closing])) s' := htakes
    exact hcomma.lacks (by simp)

theorem delimited_complete {item : Nat → Scanned → Parsed (β × Scanned)} {bare : β → α}
    (hclosing : Bare.Closing closing)
    (hstarts : ∀ {ts a}, derives ts a → Bare.Starts (fun t => ¬ Bare.Closing t) ts)
    {fuel : Nat} {first : Bool} {s s' : Scanned} {ts : List Token} {as : List α}
    (hitem : ∀ k < fuel, Complete k (item k) bare derives) (hfuel : ts.length < fuel)
    (htakes : s.Takes (ts ++ [closing]) s') (h : Listed derives first ts as) :
    ∃ xs stop, delimited closing item fuel first s = .ok (xs, stop, s') ∧ xs.map bare = as := by
  induction fuel generalizing first s ts as with
  | zero => exact absurd hfuel (Nat.not_lt_zero _)
  | succ fuel ih =>
      rcases h.eq_nil_or_cons with ⟨rfl, rfl⟩ | ⟨ts, us, a, as, rfl, rfl, hderives, hrest⟩
      · obtain ⟨⟨_, stop⟩, s₁, hs, rfl, hend⟩ := takes_cons_iff.mp htakes
        obtain rfl := takes_nil_iff.mp hend
        refine ⟨[], stop, ?_, rfl⟩
        rw [delimited]
        exact bind_eq_ok_iff.mpr ⟨_, close_eq_some_iff.mpr hs, rfl⟩
      · have hstart := hstarts hderives
        -- an item has a token, so one fuel less suffices for those after it
        have hlength := hstart.length_pos
        have hsplit : s.Takes (separator first ++ (ts ++ (us ++ [closing]))) s' := by
          simpa using htakes
        simp only [List.length_append] at hfuel
        obtain ⟨s₁, hclose, hafter⟩ := close_of_takes hsplit hclosing (hstart.append _)
        obtain ⟨s₂, hts, hus⟩ := takes_append_iff.mp hafter
        obtain ⟨x, hx, rfl⟩ := hitem fuel (Nat.lt_succ_self fuel) s₁ ts s₂ a (by omega) hts
          (lacks_dot_of_listed hclosing hus hrest) hderives
        obtain ⟨xs, stop, hxs, rfl⟩ := ih (fun k hk => hitem k (Nat.lt_succ_of_lt hk))
          (by omega) hus hrest
        refine ⟨x :: xs, stop, ?_, rfl⟩
        rw [delimited]
        exact bind_eq_ok_iff.mpr ⟨_, hclose,
          bind_eq_ok_iff.mpr ⟨_, hx, bind_eq_ok_iff.mpr ⟨_, hxs, rfl⟩⟩⟩

end Lists

/-! ## Literals -/

theorem mapEntry_complete {fuel : Nat}
    (h : Complete fuel (literal fuel) Literal.bareItem Bare.Literal.Derives) :
    Complete fuel (mapEntry fuel) Literal.bareEntry Bare.Literal.EntryDerives := by
  rintro s ts s' entry hfuel htakes hlacks hentry
  cases hentry with
  | @intro key name ts value hkey hvalue =>
      simp only [List.length_cons] at hfuel
      obtain ⟨span, s₁, hs₁, hafter⟩ := mapKey_of_takes htakes hkey
      obtain ⟨colon, s₂, hs₂, hafter⟩ := expect_of_takes hafter
      obtain ⟨x, hx, rfl⟩ := h s₂ ts s' value (by omega) hafter hlacks hvalue
      exact ⟨(⟨name, span⟩, x), bind_eq_ok_iff.mpr ⟨_, hs₁,
        bind_eq_ok_iff.mpr ⟨_, hs₂, bind_eq_ok_iff.mpr ⟨_, hx, rfl⟩⟩⟩, rfl⟩

/-- A literal of one token. -/
theorem literal_of_single {fuel : Nat} {s s' : Scanned} {token : Token} {l : Literal}
    (htakes : s.Takes [token] s')
    (h : ∀ span, literal (fuel + 1) (s'.push ⟨token, span⟩) = .ok (⟨l, span⟩, s')) :
    ∃ x, literal (fuel + 1) s = .ok (x, s') ∧ Literal.bareItem x = l.bare := by
  obtain ⟨⟨_, span⟩, s₁, rfl, rfl, hend⟩ := takes_cons_iff.mp htakes
  obtain rfl := takes_nil_iff.mp hend
  exact ⟨⟨l, span⟩, h span, rfl⟩

theorem literal_complete (fuel : Nat) :
    Complete fuel (literal fuel) Literal.bareItem Bare.Literal.Derives := by
  induction fuel using Nat.strongRecOn with
  | ind fuel ih =>
  rintro s ts s' l hfuel htakes hlacks h
  cases fuel with
  | zero =>
      have hlength := h.starts.length_pos
      omega
  | succ fuel =>
  have ih : ∀ k < fuel, Complete k (literal k) Literal.bareItem Bare.Literal.Derives :=
    fun k hk => ih k (Nat.lt_succ_of_lt hk)
  cases h with
  | null => exact literal_of_single (l := .null) htakes fun _ => rfl
  | true => exact literal_of_single (l := .bool true) htakes fun _ => rfl
  | false => exact literal_of_single (l := .bool false) htakes fun _ => rfl
  | int value => exact literal_of_single (l := .int value) htakes fun _ => rfl
  | float value => exact literal_of_single (l := .float value) htakes fun _ => rfl
  | string quote value => exact literal_of_single (l := .string value) htakes fun _ => rfl
  | @list ts items hitems =>
      simp only [List.length_cons, List.length_append, List.length_nil] at hfuel
      obtain ⟨span, s₁, hnext, hafter⟩ := next_of_takes htakes
      obtain ⟨xs, stop, hxs, rfl⟩ := delimited_complete (.inr (.inl rfl))
        (fun h => h.starts.mono fun _ htoken => htoken.1) ih (by omega) hafter
        (show Listed _ true _ _ from hitems)
      rw [← literals_eq_delimited] at hxs
      refine ⟨⟨.list xs, span.merge stop⟩, ?_, ?_⟩
      · exact bind_eq_ok_iff.mpr ⟨_, hnext, bind_eq_ok_iff.mpr ⟨_, hxs, rfl⟩⟩
      · rw [Literal.bareItem, Literal.bare, Literal.bareItems_eq]
  | @map ts entries hentries =>
      simp only [List.length_cons, List.length_append, List.length_nil] at hfuel
      obtain ⟨span, s₁, hnext, hafter⟩ := next_of_takes htakes
      obtain ⟨xs, stop, hxs, rfl⟩ := delimited_complete (.inr (.inr rfl))
        (fun h => h.starts) (fun k hk => mapEntry_complete (ih k hk)) (by omega) hafter
        (show Listed _ true _ _ from hentries)
      rw [← mapEntries_eq_delimited] at hxs
      refine ⟨⟨.map xs, span.merge stop⟩, ?_, ?_⟩
      · exact bind_eq_ok_iff.mpr ⟨_, hnext, bind_eq_ok_iff.mpr ⟨_, hxs, rfl⟩⟩
      · rw [Literal.bareItem, Literal.bare, Literal.bareEntries_eq]

/-! ## Predicates -/

theorem predicateName_complete {s s' : Scanned} {ns us : List Token} {name : String}
    (htakes : s.Takes (ns ++ .leftParen :: us) s') (h : Bare.Predicate.NameDerives ns name) :
    ∃ word s₁, predicateName s = .ok (word, s₁) ∧ word.value = name ∧
      s₁.Takes (.leftParen :: us) s' := by
  cases h with
  | plain =>
      obtain ⟨span, s₁, hword, hafter⟩ := word_of_takes htakes
      refine ⟨⟨name, span⟩, s₁, bind_eq_ok_iff.mpr ⟨_, hword, ?_⟩, rfl, hafter⟩
      dsimp only
      split
      · have hlacks : s₁.Lacks .dot := hafter.lacks (by simp)
        exact bind_eq_ok_iff.mpr ⟨_, eat_eq_none_iff.mpr ⟨rfl, hlacks⟩, rfl⟩
      · rfl
  | @qualified qualifier hqualifier =>
      obtain ⟨span, s₁, hword, hafter⟩ := word_of_takes htakes
      obtain ⟨dot, s₂, hdot, hafter⟩ := eat_of_takes hafter
      obtain ⟨span', s₃, hqualified, hafter⟩ := word_of_takes hafter
      refine ⟨⟨name, span.merge span'⟩, s₃, bind_eq_ok_iff.mpr ⟨_, hword, ?_⟩, rfl, hafter⟩
      have hmem : qualifiers.contains qualifier = true := by simpa [qualifiers] using hqualifier
      simp only [hmem, if_true]
      exact bind_eq_ok_iff.mpr ⟨_, hdot, bind_eq_ok_iff.mpr ⟨_, hqualified, rfl⟩⟩

theorem predicateCall_complete {fuel : Nat} {s s' : Scanned} {ts : List Token}
    {p : Bare.Predicate} (hfuel : ts.length ≤ fuel + 1) (htakes : s.Takes ts s')
    (h : Bare.Predicate.CallDerives ts p) :
    ∃ e, predicateCall fuel s = .ok (e, s') ∧ e.bare = p := by
  cases h with
  | @intro ns ts name arguments hname harguments =>
      have hlength : 0 < ns.length := by cases hname <;> simp
      simp only [List.length_append, List.length_cons, List.length_nil] at hfuel
      obtain ⟨word, s₁, hword, rfl, hafter⟩ := predicateName_complete htakes hname
      obtain ⟨opening, s₂, hopening, hafter⟩ := expectWith_of_takes .quoteStrings hafter
      obtain ⟨xs, stop, hxs, rfl⟩ := delimited_complete (.inl rfl)
        (fun h => h.starts.mono fun _ htoken => htoken.1) (fun k _ => literal_complete k)
        (show ts.length < fuel by omega) hafter (show Listed _ true _ _ from harguments)
      rw [← literals_eq_delimited] at hxs
      exact ⟨.call word xs (word.span.merge stop), bind_eq_ok_iff.mpr ⟨_, hword,
        bind_eq_ok_iff.mpr ⟨_, hopening, bind_eq_ok_iff.mpr ⟨_, hxs, rfl⟩⟩⟩, rfl⟩

theorem joined_of_connective (left right : PredicateExpr) (connective : Bare.Connective)
    (span : Span) :
    ∃ p, joined left ⟨connective.word, span⟩ right = .ok p ∧
      p.bare = left.bare.join (connective, right.bare) := by
  cases connective with
  | and => exact ⟨.and left right, rfl, rfl⟩
  | or => exact ⟨.or left right, rfl, rfl⟩

mutual

theorem predicate_complete : ∀ fuel : Nat,
    Complete fuel (predicate fuel) PredicateExpr.bare Bare.Predicate.Derives
  | 0, _, ts, _, _, hfuel, _, _, h => by
      have hlength := h.starts.length_pos
      omega
  | fuel + 1, s, ts, s', p, hfuel, htakes, hlacks, h => by
      cases h with
      | @intro ts us first links hfirst hlinks =>
          -- the first call has a name and two parentheses, so the links have fuel left
          have hlength : 2 < ts.length := by
            cases hfirst with
            | intro hname => cases hname <;> simp
          rw [List.length_append] at hfuel
          obtain ⟨s₁, hts, hus⟩ := takes_append_iff.mp htakes
          obtain ⟨left, hleft, rfl⟩ := predicateCall_complete (show ts.length ≤ fuel + 1 by omega)
            hts hfirst
          obtain ⟨p, hp, hbare⟩ := connected_complete fuel left s₁ us s' links (by omega) hus
            hlacks hlinks
          refine ⟨p, ?_, hbare⟩
          rw [predicate]
          exact bind_eq_ok_iff.mpr ⟨_, hleft, hp⟩

theorem connected_complete : ∀ (fuel : Nat) (left : PredicateExpr) (s : Scanned)
    (us : List Token) (s' : Scanned) (links : List (Bare.Connective × Bare.Predicate)),
    us.length < fuel → s.Takes us s' → s'.Lacks .dot →
    Star Bare.Predicate.LinkDerives us links →
    ∃ p, connected fuel left s = .ok (p, s') ∧
      p.bare = links.foldl Bare.Predicate.join left.bare
  | 0, _, _, _, _, _, hfuel, _, _, _ => absurd hfuel (Nat.not_lt_zero _)
  | fuel + 1, left, s, us, s', links, hfuel, htakes, hlacks, h => by
      rw [connected]
      cases h with
      | nil =>
          obtain rfl := takes_nil_iff.mp htakes
          exact ⟨left, bind_eq_ok_iff.mpr ⟨_, eat_eq_none_iff.mpr ⟨rfl, hlacks⟩, rfl⟩, rfl⟩
      | @cons ts us link links hlink hlinks =>
          cases hlink with
          | @intro ts right connective hright =>
              simp only [List.length_append, List.length_cons, List.length_nil] at hfuel
              simp only [List.cons_append, List.append_assoc, List.nil_append] at htakes
              obtain ⟨dot, s₁, hdot, hafter⟩ := eat_of_takes htakes
              obtain ⟨span, s₂, hword, hafter⟩ := word_of_takes hafter
              obtain ⟨opening, s₃, hopening, hafter⟩ := expect_of_takes hafter
              obtain ⟨s₄, hts, hafter⟩ := takes_append_iff.mp hafter
              obtain ⟨r, hr, rfl⟩ := predicate_complete fuel s₃ ts s₄ right (by omega) hts
                (hafter.lacks (by simp)) hright
              obtain ⟨closing, s₅, hclosing, hus⟩ := expect_of_takes hafter
              obtain ⟨both, hboth, hjoin⟩ := joined_of_connective left r connective span
              obtain ⟨p, hp, hbare⟩ := connected_complete fuel both s₅ us s' links (by omega) hus
                hlacks hlinks
              refine ⟨p, bind_eq_ok_iff.mpr ⟨_, hdot, bind_eq_ok_iff.mpr ⟨_, hword,
                bind_eq_ok_iff.mpr ⟨_, hopening, bind_eq_ok_iff.mpr ⟨_, hr,
                bind_eq_ok_iff.mpr ⟨_, hclosing, bind_eq_ok_iff.mpr ⟨_, hboth, hp⟩⟩⟩⟩⟩⟩, ?_⟩
              rw [hbare, hjoin, List.foldl_cons]

end

/-! ## Calls -/

theorem argument_complete (fuel : Nat) :
    Complete fuel (argument fuel) Argument.bare Bare.Argument.Derives := by
  rintro s ts s' a hfuel htakes hlacks h
  cases h with
  | @literal l h =>
      obtain ⟨token, rest, rfl, -, hword⟩ := h.starts
      obtain ⟨span, hpeek⟩ := peek?_of_takes htakes
      obtain ⟨x, hx, rfl⟩ := literal_complete fuel s _ s' l hfuel htakes hlacks h
      refine ⟨.literal x, bind_eq_ok_iff.mpr ⟨_, hpeek, ?_⟩, rfl⟩
      split
      · next name _ heq =>
          cases heq
          exact absurd rfl (hword name)
      · exact bind_eq_ok_iff.mpr ⟨_, hx, rfl⟩
  | @predicate p h =>
      obtain ⟨_, rest, rfl, name, rfl⟩ := h.starts
      obtain ⟨span, hpeek⟩ := peek?_of_takes htakes
      obtain ⟨x, hx, rfl⟩ := predicate_complete fuel s _ s' p hfuel htakes hlacks h
      exact ⟨.predicate x, bind_eq_ok_iff.mpr ⟨_, hpeek, bind_eq_ok_iff.mpr ⟨_, hx, rfl⟩⟩, rfl⟩

theorem call_complete {fuel : Nat} {s s' : Scanned} {ts : List Token} {c : Bare.Call}
    (hfuel : ts.length ≤ fuel) (htakes : s.Takes ts s') (h : Bare.Call.Derives ts c) :
    ∃ x, call fuel s = .ok (x, s') ∧ x.bare = c := by
  cases h with
  | @intro ts arguments name harguments =>
      simp only [List.length_append, List.length_cons, List.length_nil] at hfuel
      obtain ⟨span, s₁, hword, hafter⟩ := word_of_takes htakes
      obtain ⟨opening, s₂, hopening, hafter⟩ :=
        expectWith_of_takes (.callWithParentheses name) hafter
      obtain ⟨xs, stop, hxs, rfl⟩ := delimited_complete (.inl rfl) (fun h => h.starts)
        (fun k _ => argument_complete k) (show ts.length < fuel by omega) hafter
        (show Listed _ true _ _ from harguments)
      rw [← arguments_eq_delimited] at hxs
      exact ⟨⟨⟨name, span⟩, xs, span.merge stop⟩, bind_eq_ok_iff.mpr ⟨_, hword,
        bind_eq_ok_iff.mpr ⟨_, hopening, bind_eq_ok_iff.mpr ⟨_, hxs, rfl⟩⟩⟩, rfl⟩

theorem calls_complete {fuel : Nat} {s s' : Scanned} {us : List Token} {steps : List Bare.Call}
    (hfuel : us.length < fuel) (htakes : s.Takes us s') (hlacks : s'.Lacks .dot)
    (h : Star (After .dot Bare.Call.Derives) us steps) :
    ∃ cs, calls fuel s = .ok (cs, s') ∧ cs.map StepCall.bare = steps := by
  induction fuel generalizing s us steps with
  | zero => exact absurd hfuel (Nat.not_lt_zero _)
  | succ fuel ih =>
      rw [calls]
      cases h with
      | nil =>
          obtain rfl := takes_nil_iff.mp htakes
          exact ⟨[], bind_eq_ok_iff.mpr ⟨_, eat_eq_none_iff.mpr ⟨rfl, hlacks⟩, rfl⟩, rfl⟩
      | @cons ts us step steps hstep hsteps =>
          cases hstep with
          | @intro ts _ hcall =>
              simp only [List.length_append, List.length_cons] at hfuel
              obtain ⟨dot, s₁, hdot, hafter⟩ := eat_of_takes htakes
              obtain ⟨s₂, hts, hus⟩ := takes_append_iff.mp hafter
              obtain ⟨c, hc, rfl⟩ := call_complete (show ts.length ≤ fuel by omega) hts hcall
              obtain ⟨cs, hcs, rfl⟩ := ih (by omega) hus hsteps
              exact ⟨c :: cs, bind_eq_ok_iff.mpr ⟨_, hdot, bind_eq_ok_iff.mpr ⟨_, hc,
                bind_eq_ok_iff.mpr ⟨_, hcs, rfl⟩⟩⟩, rfl⟩

/-! ## Traversals -/

theorem traversal_complete {s s' : Scanned} {ts : List Token} {tree : Bare.Traversal}
    (hlength : ts.length ≤ s.tokens.length) (htakes : s.Takes ts s')
    (hend : s'.peek? = .ok none) (h : Bare.Traversal.Derives ts tree) :
    ∃ expr, traversal s = .ok expr ∧ expr.bare = tree := by
  cases h with
  | @intro ts us start steps source hstart hsteps =>
      simp only [List.length_append, List.length_cons] at hlength
      have hlacks : s'.Lacks .dot := ⟨none, hend, by simp⟩
      obtain ⟨span, s₁, hsource, hafter⟩ := word_of_takes htakes
      obtain ⟨dot, s₂, hdot, hafter⟩ := expect_of_takes hafter
      obtain ⟨s₃, hts, hus⟩ := takes_append_iff.mp hafter
      have hstartFuel : ts.length ≤ fuelFor s := by
        rw [fuelFor]
        omega
      have hstepsFuel : us.length < fuelFor s := by
        rw [fuelFor]
        omega
      obtain ⟨c, hc, rfl⟩ := call_complete hstartFuel hts hstart
      obtain ⟨cs, hcs, rfl⟩ := calls_complete hstepsFuel hus hlacks hsteps
      exact ⟨_, bind_eq_ok_iff.mpr ⟨_, hsource, bind_eq_ok_iff.mpr ⟨_, hdot,
        bind_eq_ok_iff.mpr ⟨_, hc, bind_eq_ok_iff.mpr ⟨_, hcs,
        bind_eq_ok_iff.mpr ⟨_, hend, rfl⟩⟩⟩⟩⟩, rfl⟩

/-- A traversal is accepted with a tree if and only if its tokens derive the tree. -/
theorem traversal_eq_ok_iff {s : Scanned} (hs : s.failure = none) {tree : Bare.Traversal} :
    (∃ expr, traversal s = .ok expr ∧ expr.bare = tree) ↔
      Bare.Traversal.Derives s.kinds tree := by
  constructor
  · rintro ⟨expr, h, rfl⟩
    exact traversal_sound h
  · exact traversal_complete (Nat.le_of_eq (List.length_map _))
      (takes_all s.tokens s.failure s.size) (peek?_eq_ok_none_iff.mpr ⟨rfl, hs⟩)

end Parser
end Language
end Pushdown
