import SourceLinks.Proofs.Declarations
import SourceLinks.Proofs.HeaderScopes

namespace SourceLinks

namespace Source
variable {s : Source} {entered : List Place} {scope π : Place} {x : String}

/-- What the nodes at these places declare in a scope, in the order of the places. -/
inductive DeclaredIn (s : Source) (entered : List Place) (scope : Place) : Declarations where
  | entry {i : Nat} {π : Place} {e : Entry} {key : List Nat} {v : Declared}
      (entered_at : entered[i]? = some π) (at_place : s.entryAt? π = some e)
      (owner : s.ownerAt π = scope) (declares : s.Declares e key v) :
      DeclaredIn s entered scope (i :: key) v

/-- What a name means at a place once these places have been entered. Of the scopes around the place,
that of the document being the outermost, the innermost one that has a declaration of the name has
the say, and there the last declaration. -/
inductive Means (s : Source) (entered : List Place) (π : Place) (x : String) :
    Option (Option TypeName) → Prop where
  | declared {inner outer : List Place} {scope : Place} {type : Option TypeName}
      (around : s.scopesAt π ++ [[]] = inner ++ scope :: outer)
      (innermost : ∀ σ ∈ inner, ∀ key type, ¬ s.DeclaredIn entered σ key (x, type))
      (last : (s.DeclaredIn entered scope).LastGives x type) : Means s entered π x (some type)
  | undeclared
      (nowhere : ∀ σ ∈ s.scopesAt π ++ [[]], ∀ key type, ¬ s.DeclaredIn entered σ key (x, type)) :
      Means s entered π x none

theorem listedAs_declaredIn (s : Source) (entered : List Place) (scope : Place) :
    (s.DeclaredIn entered scope).ListedAs
      (((entered.flatMap s.declarationsAt).filter fun d => d.1 == scope).map Prod.snd) := by
  have heach : ∀ π ∈ entered,
      Declarations.ListedAs
        (fun key v => s.ownerAt π = scope ∧ ∃ e, s.entryAt? π = some e ∧ s.Declares e key v)
        (((s.declarationsAt π).filter fun d => d.1 == scope).map Prod.snd) := by
    intro π _
    unfold declarationsAt
    cases he : s.entryAt? π with
    | none => exact Declarations.listedAs_nil fun key v ⟨_, e, hat, _⟩ => by cases hat
    | some e =>
      have hvars : (((s.declaredBy e).map fun v => (s.ownerAt π, v)).filter
          fun d => d.1 == scope).map Prod.snd =
            if s.ownerAt π = scope then s.declaredBy e else [] := by
        split <;> simp [List.filter_map, Function.comp_def, *]
      simp only [hvars]
      split
      · rename_i howner
        exact (s.listedAs_declaredBy e).congr fun key v => by simp [howner]
      · rename_i howner
        exact Declarations.listedAs_nil fun key v ⟨ho, _⟩ => howner ho
  rw [List.filter_flatMap, List.map_flatMap]
  refine (Declarations.listedAs_flatMap _ _ 0 heach).congr fun key v => ⟨?_, ?_⟩
  · rintro ⟨hentered, hat, howner, hdeclares⟩
    exact ⟨_, _, _, hentered, by rw [Nat.zero_add], howner, _, hat, hdeclares⟩
  · rintro ⟨i, π, rest, hentered, rfl, howner, e, hat, hdeclares⟩
    rw [Nat.zero_add]
    exact .entry hentered hat howner hdeclares

/-- Looking for the last declaration in scope after scope is finding what the name means. -/
theorem means_iff {answer : Option (Option TypeName)} :
    s.Means entered π x answer ↔ s.visible entered π x = answer := by
  have hsome : ∀ scope type, s.lastIn entered scope x = some type ↔
      (s.DeclaredIn entered scope).LastGives x type := fun scope _ =>
    (s.listedAs_declaredIn entered scope).lastOf_eq_some
  have hnone : ∀ scope, s.lastIn entered scope x = none ↔
      ∀ key type, ¬ s.DeclaredIn entered scope key (x, type) := fun scope =>
    (s.listedAs_declaredIn entered scope).lastOf_eq_none
  cases answer with
  | none =>
    rw [visible, List.findSome?_eq_none_iff]
    simp only [hnone]
    refine ⟨fun h => ?_, .undeclared⟩
    cases h with
    | undeclared nowhere => exact nowhere
  | some type =>
    rw [visible, List.findSome?_eq_some_iff]
    simp only [hsome, hnone]
    constructor
    · rintro ⟨haround, hinner, hlast⟩
      exact ⟨_, _, _, haround, hlast, hinner⟩
    · rintro ⟨inner, scope, outer, haround, hlast, hinner⟩
      exact .declared haround hinner hlast

end Source

namespace Setting
variable {st : Setting} {e : Entry} {p q : Progress} {k : Nat}

/-- Scoping is lexical. The pass enters the places of the tree in document order, and right after it
enters a node a name means what was last declared for it in the innermost scope at the node's place
that has a declaration of it, and else in the scope of the document. -/
theorem lookup_is_lexical (h : st.Enters k e p q) :
    ∃ π, st.source.places[k]? = some π ∧ st.source.entryAt? π = some e ∧
      ∀ x answer, q.here.scopes.lookup? x = answer ↔
        st.source.Means (st.source.places.take (k + 1)) π x answer := by
  obtain ⟨π, hk, hat⟩ := h.entryAt
  refine ⟨π, hk, hat, fun x answer => ?_⟩
  rw [Source.means_iff, (h.lookups hk x).2]

/-- In a local declaration all that the headers around it declare is seen: a field, a parameter, what
stands before an arrow, a resource, what is caught and the variable of a loop. -/
theorem lookup_is_lexical_in_headers :
    let word (kind field : String) (start : Nat) := Node.mk kind field true false start (start + 1) []
    let type := word "type_identifier" "type"
    let name := word "identifier" "name"
    let field := Node.plain "field_declaration" 2 5
      [type 2, .plain "variable_declarator" 4 5 [name 4]]
    let parameters := Node.mk "formal_parameters" "parameters" true false 6 9
      [.plain "formal_parameter" 6 9 [type 6, name 8]]
    let resources := Node.plain "resource_specification" 12 15
      [.plain "resource" 12 15 [type 12, name 14]]
    let caught := Node.plain "catch_formal_parameter" 16 19
      [.plain "catch_type" 16 17 [word "type_identifier" "" 16], name 18]
    let declaration := Node.plain "local_variable_declaration" 24 27
      [type 24, .plain "variable_declarator" 26 27 [name 26]]
    let loop := Node.plain "enhanced_for_statement" 20 27
      [type 20, name 22, .plain "block" 24 27 [declaration]]
    let attempt := Node.plain "try_with_resources_statement" 12 27
      [resources, .plain "catch_clause" 16 27 [caught, .plain "block" 20 27 [loop]]]
    let arrow := Node.plain "lambda_expression" 10 27 [word "identifier" "parameters" 10, attempt]
    let method := Node.plain "method_declaration" 6 27 [parameters, .plain "block" 10 27 [arrow]]
    let body := Node.mk "class_body" "body" true false 2 27 [field, method]
    let st := ofText [] "C F f P p l R r E e T t V v"
      (.plain "program" 0 27 [.plain "class_declaration" 0 27 [name 0, body]])
    ∃ p q, st.Enters 30 ⟨"block", declaration⟩ p q ∧
      ["f", "p", "l", "r", "e", "t", "v", "C"].map q.here.scopes.lookup? =
        [some (some ⟨["F"]⟩), some (some ⟨["P"]⟩), some none, some (some ⟨["R"]⟩),
          some (some ⟨["E"]⟩), some (some ⟨["T"]⟩), some (some ⟨["V"]⟩), none] ∧
      ∃ π, st.source.places[30]? = some π ∧ st.source.entryAt? π = some ⟨"block", declaration⟩ ∧
        ∀ x answer, q.here.scopes.lookup? x = answer ↔
          st.source.Means (st.source.places.take 31) π x answer := by
  intro word type name field parameters resources caught declaration loop attempt arrow method body st
  have hplace : st.source.places[30]? = some [0, 1, 1, 1, 0, 1, 1, 1, 0, 2, 0] := by decide +kernel
  obtain ⟨e, p, q, henters⟩ := st.enters_every_place hplace
  obtain ⟨π, hk, hentry, hmeans⟩ := lookup_is_lexical henters
  cases hplace.symm.trans hk
  cases hentry
  have hvisible : ∀ x, q.here.scopes.lookup? x =
      st.source.visible (st.source.places.take 31) [0, 1, 1, 1, 0, 1, 1, 1, 0, 2, 0] x := fun x =>
    (hmeans x _).mpr (Source.means_iff.mpr rfl)
  refine ⟨p, q, henters, ?_, _, hk, rfl, hmeans⟩
  rw [List.map_congr_left fun x _ => hvisible x]
  decide +kernel

end Setting
end SourceLinks
