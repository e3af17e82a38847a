import SourceLinks.Proofs.Answers
import SourceLinks.Proofs.LexicalScopes

namespace SourceLinks

/-- A place between two that lie below a third one lies below it too. -/
theorem prefix_of_between {part σ τ π : Place} (hσ : part <+: σ) (hπ : part <+: π)
    (hlow : List.Lex (· < ·) σ τ) (hhigh : List.Lex (· < ·) τ π) : part <+: τ := by
  induction part generalizing σ τ π with
  | nil => exact List.nil_prefix
  | cons i part ih =>
    obtain ⟨σ', rfl⟩ := hσ
    obtain ⟨π', rfl⟩ := hπ
    cases hlow with
    | cons hlow =>
      cases hhigh with
      | cons hhigh =>
        exact List.cons_prefix_cons.mpr
          ⟨rfl, ih (List.prefix_append ..) (List.prefix_append ..) hlow hhigh⟩
      | rel hlt => omega
    | rel hlt =>
      cases hhigh with
      | cons _ => omega
      | rel hlt' => omega

/-- Where all that follows a chosen element is chosen, the chosen elements come last. -/
theorem filter_append_of_pairwise {α : Type} {chosen : α → Bool} {l : List α}
    (h : l.Pairwise fun a b => chosen a = true → chosen b = true) :
    l.filter (fun a => !chosen a) ++ l.filter chosen = l := by
  induction h with
  | nil => rfl
  | @cons a l hfirst _ ih =>
    cases ha : chosen a with
    | false =>
      rw [List.filter_cons_of_pos (by simp [ha]), List.filter_cons_of_neg (by simp [ha])]
      rw [List.cons_append, ih]
    | true =>
      have hall : ∀ b ∈ a :: l, chosen b = true := by
        intro b hb
        rcases List.mem_cons.mp hb with rfl | hb
        · exact ha
        · exact hfirst b hb ha
      have hnone : (a :: l).filter (fun b => !chosen b) = [] := by
        rw [List.filter_eq_nil_iff]
        intro b hb
        simp [hall b hb]
      rw [hnone, List.nil_append, List.filter_eq_self.mpr hall]

namespace Source

/-- What a name means at a place in child number `i` of the node at `σ` by declarations made in that
child alone: those of the scopes that it opens, and else those it adds to the scope of the node. -/
def within (s : Source) (entered : List Place) (σ : Place) (i : Nat) (π : Place) (x : String) :
    Option (Option TypeName) :=
  (((s.scopesAt π).filter (σ ++ [i] <+: ·)).findSome? fun scope => s.lastIn entered scope x).or
    (s.lastIn (entered.filter (σ ++ [i] <+: ·)) σ x)

/-- What the scope of the node at `σ` has for a name from outside of its child number `i`. -/
def header (s : Source) (entered : List Place) (σ : Place) (i : Nat) (x : String) :
    Option (Option TypeName) :=
  s.lastIn (entered.filter fun τ => !decide (σ ++ [i] <+: τ)) σ x

variable {s : Source} {π σ τ : Place} {i k k₀ : Nat} {entered : List Place} {x : String}

theorem lastIn_append (s : Source) (before after : List Place) (σ : Place) (x : String) :
    s.lastIn (before ++ after) σ x = (s.lastIn after σ x).or (s.lastIn before σ x) := by
  simp only [lastIn, List.flatMap_append, List.filter_append, List.map_append, Keyed.lastOf_append]

/-- The places entered up to one are that place and some before it. -/
theorem eq_or_lex_of_entered (hk : s.places[k]? = some π) (hτ : τ ∈ s.places.take (k + 1)) :
    τ = π ∨ List.Lex (· < ·) τ π := by
  have hsorted := s.places_sorted.sublist (List.take_sublist (k + 1) _)
  rw [List.take_add_one, hk, Option.toList_some, List.pairwise_append] at hsorted
  rw [List.take_add_one, hk, Option.toList_some, List.mem_append, List.mem_singleton] at hτ
  rcases hτ with hτ | rfl
  · exact .inr (hsorted.2.2 τ hτ π (by simp))
  · exact .inl rfl

theorem below_of_between {part : Place} (hk : s.places[k]? = some π) (hπ : part <+: π)
    (hσ : part <+: σ) (hlex : List.Lex (· < ·) σ τ) (hτ : τ ∈ s.places.take (k + 1)) :
    part <+: τ := by
  rcases eq_or_lex_of_entered hk hτ with rfl | hhigh
  · exact hπ
  · exact prefix_of_between hσ hπ hlex hhigh

/-- Up to a place in a part, the places in the part are the last that were entered. -/
theorem entered_split {part : Place} (hk : s.places[k]? = some π) (hπ : part <+: π) :
    (s.places.take (k + 1)).filter (fun τ => !decide (part <+: τ)) ++
      (s.places.take (k + 1)).filter (part <+: ·) = s.places.take (k + 1) := by
  apply filter_append_of_pairwise
  apply (s.places_sorted.sublist (List.take_sublist (k + 1) _)).imp_of_mem
  intro σ τ _ hτ hlex hσ
  simp only [decide_eq_true_eq] at hσ ⊢
  exact below_of_between hk hπ hσ hlex hτ

/-- The scopes at a place in a child are those that the child opens and those around it. -/
theorem scopesAt_child (h : σ ++ [i] <+: π) :
    s.scopesAt π = (s.scopesAt π).filter (σ ++ [i] <+: ·) ++ s.scopesAt σ := by
  have hnone : (s.scopesAt σ).filter (fun τ => decide (σ ++ [i] <+: τ)) = [] := by
    rw [List.filter_eq_nil_iff]
    intro τ hτ hbelow
    have hlen := ((of_decide_eq_true hbelow).trans (mem_scopesAt.mp hτ).1).length_le
    simp only [List.length_append, List.length_singleton] at hlen
    omega
  obtain ⟨ρ, rfl⟩ := h
  induction ρ using List.reverseRecOn with
  | nil =>
    rw [List.append_nil, scopesAt_snoc]
    split
    · rw [List.filter_cons_of_pos (by simp), hnone, List.singleton_append]
    · rw [hnone, List.nil_append]
  | append_singleton ρ j ih =>
    rw [← List.append_assoc, scopesAt_snoc]
    split
    · rw [List.filter_cons_of_pos (by simp), List.cons_append, ← ih]
    · exact ih

theorem ne_nil_of_opensAt (hopens : s.opensAt σ = true) : σ ≠ [] := by
  rintro rfl
  exact nil_not_mem_scopesAt (mem_scopesAt.mpr ⟨List.prefix_rfl, hopens⟩)

/-- The scope that a node opens comes before those around it. -/
theorem scopesAt_scope (hopens : s.opensAt σ = true) :
    s.scopesAt σ = σ :: s.scopesAt σ.dropLast := by
  have hsnoc := s.scopesAt_snoc σ.dropLast (σ.getLast (ne_nil_of_opensAt hopens))
  rwa [List.dropLast_append_getLast, if_pos hopens] at hsnoc

/-- What is declared in a node that opens a scope stays in it. -/
theorem below_ownerAt (hopens : s.opensAt σ = true) (h : σ <+: τ) : σ <+: s.ownerAt τ := by
  obtain ⟨ρ, rfl⟩ := h
  induction ρ using List.reverseRecOn with
  | nil =>
    rw [List.append_nil, ownerAt, scopesAt_scope hopens]
    exact List.prefix_rfl
  | append_singleton ρ m ih =>
    rw [← List.append_assoc, ownerAt, scopesAt_snoc]
    split
    · exact (List.prefix_append _ ρ).trans (List.prefix_append _ [m])
    · exact ih

theorem visible_scope (hopens : s.opensAt σ = true) :
    s.visible entered σ x = (s.lastIn entered σ x).or (s.visible entered σ.dropLast x) := by
  rw [visible, scopesAt_scope hopens, List.cons_append, List.findSome?_cons, visible]
  cases s.lastIn entered σ x <;> rfl

theorem visible_in_child (hopens : s.opensAt σ = true) (hk : s.places[k]? = some π)
    (hπ : σ ++ [i] <+: π) :
    s.visible (s.places.take (k + 1)) π x =
      (s.within (s.places.take (k + 1)) σ i π x).or
        ((s.header (s.places.take (k + 1)) σ i x).or
          (s.visible (s.places.take (k + 1)) σ.dropLast x)) := by
  have hsplit : s.visible (s.places.take (k + 1)) π x =
      (((s.scopesAt π).filter (σ ++ [i] <+: ·)).findSome? fun scope =>
        s.lastIn (s.places.take (k + 1)) scope x).or (s.visible (s.places.take (k + 1)) σ x) := by
    nth_rewrite 1 [visible]
    rw [scopesAt_child hπ, List.append_assoc, List.findSome?_append, ← scopesAt_child hπ, visible]
  have hscope : s.lastIn (s.places.take (k + 1)) σ x =
      (s.lastIn ((s.places.take (k + 1)).filter (σ ++ [i] <+: ·)) σ x).or
        (s.header (s.places.take (k + 1)) σ i x) := by
    rw [header, ← lastIn_append, entered_split hk hπ]
  rw [hsplit, visible_scope hopens, hscope, within]
  simp only [Option.or_assoc]

/-- A node is entered before those below it. -/
theorem entered_above_first (hk₀ : s.places[k₀]? = some σ) (hk : s.places[k]? = some π)
    (hπ : σ <+: π) : k₀ ≤ k := by
  rcases Nat.lt_or_ge k k₀ with hlt | hle
  · obtain ⟨hlt₀, rfl⟩ := List.getElem?_eq_some_iff.mp hk₀
    obtain ⟨hlt', rfl⟩ := List.getElem?_eq_some_iff.mp hk
    have hlex := List.pairwise_iff_getElem.mp s.places_sorted k k₀ hlt' hlt₀ hlt
    exact absurd hπ (not_prefix_of_lex hlex)
  · exact hle

/-- All that was entered since a node was lies in it. -/
theorem below_of_entered_since (hk₀ : s.places[k₀]? = some σ) (hk : s.places[k]? = some π)
    (hπ : σ <+: π) (hle : k₀ ≤ k) (hτ : τ ∈ (s.places.take (k + 1)).drop k₀) : σ <+: τ := by
  have hfirst : (s.places.take (k + 1)).drop k₀ = σ :: (s.places.take (k + 1)).drop (k₀ + 1) := by
    rw [List.drop_eq_getElem?_toList_append, List.getElem?_take_of_lt (by omega), hk₀]
    rfl
  have hsorted := s.places_sorted.sublist
    ((List.drop_sublist k₀ _).trans (List.take_sublist (k + 1) s.places))
  rw [hfirst, List.pairwise_cons] at hsorted
  rw [hfirst] at hτ
  rcases List.mem_cons.mp hτ with rfl | hτ
  · exact List.prefix_rfl
  · exact below_of_between hk hπ List.prefix_rfl (hsorted.1 τ hτ) (List.mem_of_mem_drop hτ)

/-- Names mean outside of a node that opens a scope what they meant before it was entered. -/
theorem visible_outside (hopens : s.opensAt σ = true) (hk₀ : s.places[k₀]? = some σ)
    (hk : s.places[k]? = some π) (hπ : σ <+: π) :
    s.visible (s.places.take (k + 1)) σ.dropLast x = s.visible (s.places.take k₀) σ.dropLast x := by
  have hle := entered_above_first hk₀ hk hπ
  have hentered : s.places.take (k + 1) =
      s.places.take k₀ ++ (s.places.take (k + 1)).drop k₀ := by
    nth_rewrite 1 [← List.take_append_drop k₀ (s.places.take (k + 1))]
    rw [List.take_take, Nat.min_eq_left (by omega)]
  have hscope : ∀ scope ∈ s.scopesAt σ.dropLast ++ [[]],
      s.lastIn (s.places.take (k + 1)) scope x = s.lastIn (s.places.take k₀) scope x := by
    intro scope hscope
    have hshort : scope.length < σ.length := by
      have hpos := List.length_pos_iff.mpr (ne_nil_of_opensAt hopens)
      rcases List.mem_append.mp hscope with h | h
      · have hlen := (mem_scopesAt.mp h).1.length_le
        rw [List.length_dropLast] at hlen
        omega
      · rw [List.mem_singleton.mp h]
        exact hpos
    have hnone : s.lastIn ((s.places.take (k + 1)).drop k₀) scope x = none := by
      apply lastIn_unowned
      rintro τ hτ rfl
      have hin := below_ownerAt hopens (below_of_entered_since hk₀ hk hπ hle hτ)
      have hlen := hin.length_le
      omega
    rw [hentered, lastIn_append, hnone, Option.none_or]
  have hmeanings := congrArg (List.findSome? id) (List.map_congr_left hscope)
  simpa only [visible, List.findSome?_map, Function.id_comp] using hmeanings

/-- Child number `i` of the node at `σ` is a part of a statement that the variables of the
statement's header are not meant for: what a loop over elements runs over, or what follows the body
of a `try` with resources. -/
def ExcludesHeader (s : Source) (σ : Place) (i : Nat) : Prop :=
  ∃ e c, s.entryAt? σ = some e ∧ e.node.children[i]? = some c ∧
    (e.role = .forEach ∧ c.field = "value" ∨
      e.role = .tryWithResources ∧ (c.kind = "catch_clause" ∨ c.kind = "finally_clause"))

theorem ExcludesHeader.opensAt (h : s.ExcludesHeader σ i) : s.opensAt σ = true := by
  obtain ⟨e, c, he, _, ⟨hrole, _⟩ | ⟨hrole, _⟩⟩ := h <;> simp [Source.opensAt, he, hrole] <;> rfl

end Source

namespace Setting
variable {st : Setting} {done work : List Work} {e e₀ : Entry} {p q p₀ q₀ start : Progress}
  {k k₀ i : Nat} {σ π : Place}

/-- Before a node is entered names mean what they do around it, and then what they do at it. -/
theorem Enters.lookups (h : st.Enters k e p q) (hk : st.source.places[k]? = some π) (x : String) :
    p.here.scopes.lookup? x = st.source.visible (st.source.places.take k) π.dropLast x ∧
      q.here.scopes.lookup? x = st.source.visible (st.source.places.take (k + 1)) π x := by
  obtain ⟨done, rest, hstanding, rfl, he, hq⟩ := h
  obtain ⟨π', hk', _, _, hafter⟩ := tracks_enter hstanding.tracks he
  obtain ⟨scopes, hplan, hbefore⟩ := hstanding.tracks
  obtain ⟨above, j, later, _, rfl, hdrop, _⟩ := hplan.entered he
  obtain rfl : π = π' := Option.some.inj (hk.symm.trans hk')
  have hπ : above ++ [j] = π := by
    rw [← List.head?_drop, hdrop, List.head?_cons] at hk
    exact Option.some.inj hk
  refine ⟨?_, ?_⟩
  · rw [← hπ, List.dropLast_concat]
    exact hbefore.lookup x
  · rw [enter_here hq]
    exact hafter.lookup x

theorem Turns.enters (hstart : st.importPass.Yields start)
    (h : st.Turns st.topWork start done work p) (hk : k < (Work.entered done).length) :
    ∃ e p q, st.Enters k e p q := by
  induction h with
  | start => simp at hk
  | @turn done rest w q r hturns hw ih =>
    rcases Nat.lt_or_ge k (Work.entered done).length with hlt | hge
    · exact ih hlt
    rw [Work.entered_snoc, List.length_append] at hk
    -- The place is that of the last item, which therefore enters a node.
    rcases perform_cases hw with
      ⟨scopes, classes, rfl, rfl⟩ | ⟨parent, n, rfl, hs, rfl⟩ | ⟨e, rfl, he, hq⟩
    · exact absurd hk (Nat.not_lt.mpr hge)
    · simp only [Work.entry?, hs, ↓reduceIte, Option.toList_none, List.length_nil] at hk
      omega
    · have hone := Option.length_toList_le (o := Work.entry? (.enter e.parent e.node))
      exact ⟨e, q, r, done, rest, ⟨start, hstart, hturns⟩, by omega, he, hq⟩

/-- A pass enters every place. -/
theorem enters_every_place (st : Setting) (hk : st.source.places[k]? = some π) :
    ∃ e p q, st.Enters k e p q := by
  let start := st.importPass.answered st.corpus.answers
  have hstart : st.importPass.Yields start := Inquiry.answered_yields _ _
  obtain ⟨done, hturns⟩ := Turns.of_walk ((st.walk st.topWork start).answered_yields st.corpus.answers)
  obtain ⟨scopes, hplan, _⟩ := Standing.tracks ⟨start, hstart, hturns⟩
  generalize hdrop : st.source.places.drop (Work.entered done).length = upcoming at hplan
  cases hplan with
  | nil =>
    have hlen := List.drop_eq_nil_iff.mp hdrop
    have hlt := (List.getElem?_eq_some_iff.mp hk).1
    exact hturns.enters hstart (by omega)

/-- The variables of a header are in scope throughout the statement. In a part that they are not
meant for, a name means what the part declares, else what the header does, and only then what it
meant outside the statement; so the header makes no difference there exactly if the part declares the
name itself, or the header does not declare it or gives it the meaning that it has outside. -/
theorem header_reaches_every_part (h₀ : st.Enters k₀ e₀ p₀ q₀) (h : st.Enters k e p q)
    (hσ : st.source.places[k₀]? = some σ) (hπ : st.source.places[k]? = some π)
    (hpart : st.source.ExcludesHeader σ i) (hin : σ ++ [i] <+: π) (x : String) :
    let inside := st.source.within (st.source.places.take (k + 1)) σ i π x
    let header := st.source.header (st.source.places.take (k + 1)) σ i x
    let outside := p₀.here.scopes.lookup? x
    q.here.scopes.lookup? x = inside.or (header.or outside) ∧
      (q.here.scopes.lookup? x = inside.or outside ↔
        inside ≠ none ∨ header = none ∨ header = outside) := by
  intro inside header outside
  have hmeaning : q.here.scopes.lookup? x = inside.or (header.or outside) := by
    rw [(h.lookups hπ x).2, Source.visible_in_child hpart.opensAt hπ hin,
      Source.visible_outside hpart.opensAt hσ hπ ((List.prefix_append _ _).trans hin),
      ← (h₀.lookups hσ x).1]
  refine ⟨hmeaning, ?_⟩
  rw [hmeaning]
  cases inside with
  | some t => simp
  | none => cases header <;> simp

/-- A statement below a declaration of `x` as an `A`. -/
def belowDeclaration (text : String) (statement : Node) : Setting :=
  let type := Node.mk "type_identifier" "type" true false 0 1 []
  let declarator := Node.mk "variable_declarator" "declarator" true false 2 3
    [.mk "identifier" "name" true false 2 3 []]
  ofText [] text (.plain "program" 0 statement.stop
    [.plain "local_variable_declaration" 0 4 [type, declarator], statement])

/-- A loop over elements whose variable, a `B`, has the name of what it runs over. -/
def loopOverNamesake : Setting :=
  belowDeclaration "A x;for(B x:x){}" (.plain "enhanced_for_statement" 4 16
    [.mk "type_identifier" "type" true false 8 9 [], .mk "identifier" "name" true false 10 11 [],
      .mk "identifier" "value" true false 12 13 [], .mk "block" "body" true false 14 16 []])

/-- A resource, also a `B`, and a block that runs after it is closed. -/
def tryWithNamesake : Setting :=
  let resource := Node.plain "resource" 8 13
    [.mk "type_identifier" "type" true false 8 9 [], .mk "identifier" "name" true false 10 11 [],
      .mk "identifier" "value" true false 12 13 []]
  belowDeclaration "A x;try(B x=y){}finally{}" (.plain "try_with_resources_statement" 4 25
    [.mk "resource_specification" "resources" true false 7 14 [resource],
      .mk "block" "body" true false 14 16 [],
      .plain "finally_clause" 16 25 [.plain "block" 23 25 []]])

theorem header_reaches_every_part_of_loop :
    let st := loopOverNamesake
    let inside := st.source.within (st.source.places.take 8) [1] 2 [1, 2] "x"
    let header := st.source.header (st.source.places.take 8) [1] 2 "x"
    ∃ e₀ p₀ q₀ e p q, st.Enters 4 e₀ p₀ q₀ ∧ st.Enters 7 e p q ∧
      st.source.places[4]? = some [1] ∧ st.source.places[7]? = some [1, 2] ∧
      st.source.ExcludesHeader [1] 2 ∧ [1] ++ [2] <+: [1, 2] ∧
      inside = none ∧ header = some (some ⟨["B"]⟩) ∧
      q.here.scopes.lookup? "x" = inside.or (header.or (p₀.here.scopes.lookup? "x")) ∧
      (q.here.scopes.lookup? "x" = inside.or (p₀.here.scopes.lookup? "x") ↔
        inside ≠ none ∨ header = none ∨ header = p₀.here.scopes.lookup? "x") := by
  intro st inside header
  have hσ : st.source.places[4]? = some [1] := rfl
  have hπ : st.source.places[7]? = some [1, 2] := rfl
  have hpart : st.source.ExcludesHeader [1] 2 := ⟨_, _, rfl, rfl, .inl ⟨rfl, rfl⟩⟩
  have hinside : inside = none := by decide
  have hheader : header = some (some ⟨["B"]⟩) := by decide
  obtain ⟨e₀, p₀, q₀, h₀⟩ := enters_every_place st hσ
  obtain ⟨e, p, q, h⟩ := enters_every_place st hπ
  have hmeaning := header_reaches_every_part h₀ h hσ hπ hpart List.prefix_rfl "x"
  exact ⟨e₀, p₀, q₀, e, p, q, h₀, h, hσ, hπ, hpart, List.prefix_rfl, hinside, hheader, hmeaning⟩

/-- For a name that child number `i` of the statement at `σ` does not declare, a pass finds another
meaning in that child than it had when it came to the statement. -/
def Misreads (st : Setting) (σ : Place) (i : Nat) (x : String) : Prop :=
  ∃ k₀ e₀ p₀ q₀ k e p q π, st.Enters k₀ e₀ p₀ q₀ ∧ st.Enters k e p q ∧
    st.source.places[k₀]? = some σ ∧ st.source.places[k]? = some π ∧ σ ++ [i] <+: π ∧
    st.source.within (st.source.places.take (k + 1)) σ i π x = none ∧
    q.here.scopes.lookup? x ≠ p₀.here.scopes.lookup? x

theorem misreads_of_visible {x : String} (hσ : st.source.places[k₀]? = some σ)
    (hπ : st.source.places[k]? = some π) (hin : σ ++ [i] <+: π)
    (hnone : st.source.within (st.source.places.take (k + 1)) σ i π x = none)
    (hne : st.source.visible (st.source.places.take (k + 1)) π x ≠
      st.source.visible (st.source.places.take k₀) σ.dropLast x) : st.Misreads σ i x := by
  obtain ⟨e₀, p₀, q₀, h₀⟩ := enters_every_place st hσ
  obtain ⟨e, p, q, h⟩ := enters_every_place st hπ
  refine ⟨k₀, e₀, p₀, q₀, k, e, p, q, π, h₀, h, hσ, hπ, hin, hnone, ?_⟩
  rw [(h.lookups hπ x).2, (h₀.lookups hσ x).1]
  exact hne

/-- Neither what a loop runs over nor what follows the body of a `try` is as outside the statement. -/
theorem header_hides_outside :
    (loopOverNamesake.source.ExcludesHeader [1] 2 ∧ loopOverNamesake.Misreads [1] 2 "x") ∧
      tryWithNamesake.source.ExcludesHeader [1] 2 ∧ tryWithNamesake.Misreads [1] 2 "x" := by
  have hloop : loopOverNamesake.source.places[4]? = some [1] := rfl
  have hvalue : loopOverNamesake.source.places[7]? = some [1, 2] := rfl
  have htry : tryWithNamesake.source.places[4]? = some [1] := rfl
  have hfinally : tryWithNamesake.source.places[12]? = some [1, 2, 0] := rfl
  refine ⟨⟨⟨_, _, rfl, rfl, .inl ⟨rfl, rfl⟩⟩, ?_⟩, ⟨_, _, rfl, rfl, .inr ⟨rfl, .inr rfl⟩⟩, ?_⟩
  · exact misreads_of_visible hloop hvalue (by decide) (by decide) (by decide)
  · exact misreads_of_visible htry hfinally (by decide) (by decide) (by decide)

end Setting
end SourceLinks
