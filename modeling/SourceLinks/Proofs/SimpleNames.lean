import SourceLinks.Proofs.LexicalScopes
import SourceLinks.Proofs.Targets

namespace SourceLinks

theorem Text.throughLast_append_afterLast (sep : Char) (cs : List Char) :
    throughLast sep cs ++ afterLast sep cs = cs := by
  rw [throughLast, afterLast, ← List.reverse_append, List.takeWhile_append_dropWhile,
    List.reverse_reverse]

/-- The owner of a document is a class of its package. -/
theorem Document.package_append_simple (d : Document) : d.package ++ d.ownerSimpleName = d.owner := by
  rw [package, ownerSimpleName, ← String.ofList_append, Text.throughLast_append_afterLast,
    String.ofList_toList]

/-- The internal name of the innermost enclosing class that has this name and whose internal name is
known. -/
def Surroundings.classNamed? (here : Surroundings) (x : String) : Option String :=
  here.classes.findSome? fun ctx =>
    if ctx.simple = some x then ctx.internal.filter (· != "") else none

namespace Setting
variable {st : Setting} {here : Surroundings} {around classes : List ClassContext}
  {ctx : ClassContext} {done work : List Work} {p : Progress} {x i c d : String} {t r : Target}

/-- The document is that of a member class, and `x` is that class's own name. -/
def OwnsMember (st : Setting) (x : String) : Prop :=
  ('$' :: x.toList) <:+ st.source.document.ownerSimpleName.toList

/-- An enclosing class has its internal name from the package, from the class around it, or from the
document of a member class. -/
def NamedAmong (st : Setting) (around : List ClassContext) (ctx : ClassContext) : Prop :=
  ∀ x i, ctx.simple = some x → ctx.internal = some i →
    i = st.source.document.package ++ x ∨
    (∃ outer ∈ around, ∃ o, outer.internal = some o ∧ o ≠ "" ∧ i = o ++ "$" ++ x) ∨
    i = st.source.document.owner ∧ st.OwnsMember x

/-- Each enclosing class has its name among those around it. -/
def WellNamed (st : Setting) (classes : List ClassContext) : Prop :=
  ∀ ctx around, ctx :: around <:+ classes → st.NamedAmong around ctx

theorem namedAmong_unknown : st.NamedAmong around .unknown := by
  intro x i hx
  cases hx

theorem classContext_named (st : Setting) (here : Surroundings) (parent : String) (node : Node) :
    st.NamedAmong here.classes (st.classContext here parent node) := by
  unfold classContext
  simp only
  split
  · exact namedAmong_unknown
  · exact namedAmong_unknown
  rename_i name _ _
  split
  · split
    · rename_i howner
      rintro x i ⟨⟩ ⟨⟩
      rcases howner with hsame | hmember
      · exact .inl (hsame ▸ (Document.package_append_simple _).symm)
      · exact .inr (.inr ⟨rfl, List.isSuffixOf_iff_suffix.mp hmember⟩)
    · rintro x i ⟨⟩ ⟨⟩
      exact .inl rfl
  split
  · rintro x i _ ⟨⟩
  · rintro x i _ ⟨⟩
  · rename_i outer hne houter
    split
    · rintro x i ⟨⟩ ⟨⟩
      -- The class around it is known, so there is one.
      cases hc : here.classes with
      | nil => simp [Surroundings.enclosing, hc, ClassContext.unknown] at houter
      | cons first rest =>
        have hfirst : first.internal = some outer := by
          simpa [Surroundings.enclosing, hc] using houter
        exact .inr (.inl ⟨first, by simp, outer, hfirst, hne, rfl⟩)
    · rintro x i _ ⟨⟩

theorem WellNamed.surround (h : st.WellNamed here.classes) (e : Entry) :
    st.WellNamed (st.surround e here).classes := by
  have hnew : ∀ ctx, st.classOf? e here = some ctx → st.NamedAmong here.classes ctx := by
    intro ctx hctx
    unfold classOf? at hctx
    split at hctx
    · cases hctx
      exact classContext_named st here e.parent e.node
    · cases hctx
      exact namedAmong_unknown
    · cases hctx
  intro ctx around hsuffix
  simp only [Setting.surround] at hsuffix
  cases hc : st.classOf? e here with
  | none =>
    rw [hc] at hsuffix
    exact h ctx around hsuffix
  | some opened =>
    rw [hc, Option.toList_some, List.singleton_append] at hsuffix
    rcases List.suffix_cons_iff.mp hsuffix with heq | hbelow
    · cases heq
      exact hnew _ hc
    · exact h ctx around hbelow

/-- Wherever a pass stands, the enclosing classes are named by the source. -/
theorem Standing.wellNamed (h : st.Standing done work p) : st.WellNamed p.here.classes := by
  refine h.invariant (P := fun p => st.WellNamed p.here.classes) ?_ ?_
  · intro p hp ctx around hsuffix
    rw [importPass_here hp] at hsuffix
    simp at hsuffix
  · intro w p q hp hq
    rcases perform_cases hq with ⟨scopes, classes, rfl, rfl⟩ | ⟨_, _, rfl, _, rfl⟩ | ⟨e, rfl, _, he⟩
    · intro ctx around hsuffix
      exact hp ctx around (hsuffix.trans (List.drop_suffix _ _))
    · exact hp
    · rw [enter_here he]
      exact hp.surround e

theorem classNamed_eq_some (h : here.classNamed? x = some i) :
    ∃ ctx around, ctx :: around <:+ here.classes ∧ ctx.simple = some x ∧
      ctx.internal = some i ∧ i ≠ "" := by
  obtain ⟨ctx, hmem, hctx⟩ := List.exists_of_findSome?_eq_some h
  obtain ⟨before, around, hsplit⟩ := List.append_of_mem hmem
  split at hctx
  · rename_i hsimple
    obtain ⟨hinternal, hne⟩ := Option.filter_eq_some_iff.mp hctx
    exact ⟨ctx, around, ⟨before, hsplit.symm⟩, hsimple, hinternal, by simpa using hne⟩
  · cases hctx

/-- What imports and the language's own package offer for a name of one segment. -/
theorem mem_simpleCandidates :
    c ∈ st.typeCandidates ⟨[x]⟩ ↔
      (c ∈ (st.imports.bindingsFor x).flatMap ImportBinding.candidates ∨
        c = ClassName.language ++ x) ∧ c ≠ "" := by
  simp [typeCandidates, mem_distinctNames, importedCandidates, TypeName.isDotted, TypeName.simple,
    ImportTable.bindingsFor, and_assoc]

/-- The secondary candidates of a name of one segment: members of the enclosing classes, and the
class of the package. -/
theorem mem_simpleSecondary :
    c ∈ st.secondaryCandidates here ⟨[x]⟩ ↔
      ((∃ outer ∈ here.classes, ∃ o, outer.internal = some o ∧ o ≠ "" ∧ c = o ++ "$" ++ x) ∨
        c = st.source.document.package ++ x) ∧ c ≠ "" := by
  have hnested : TypeName.nested ⟨[x]⟩ = x := String.intercalate_singleton
  simp only [secondaryCandidates, mem_distinctNames, hnested, TypeName.isDotted, List.length_singleton,
    Nat.lt_irrefl, decide_false, Bool.false_eq_true, ↓reduceIte, List.append_nil, List.mem_append,
    List.mem_filterMap, List.mem_singleton]
  refine and_congr_left fun _ => or_congr_left (exists_congr fun outer => and_congr_right fun _ => ?_)
  split
  · rename_i hinternal
    simp [hinternal]
  · rename_i hinternal
    simp [hinternal]
  · rename_i o hne hinternal
    have hknown : o ≠ "" := hne
    simp [hinternal, hknown, eq_comm (a := c)]

/-- An enclosing class is a secondary candidate for its own name, unless it is the owner of the
document and a member class. -/
theorem secondary_of_classNamed (hw : st.WellNamed here.classes) (h : here.classNamed? x = some i) :
    i ∈ st.secondaryCandidates here ⟨[x]⟩ ∨ i = st.source.document.owner ∧ st.OwnsMember x := by
  obtain ⟨ctx, around, hsuffix, hsimple, hinternal, hne⟩ := classNamed_eq_some h
  rcases hw ctx around hsuffix x i hsimple hinternal with hpackage | hmember | howner
  · exact .inl (mem_simpleSecondary.mpr ⟨.inr hpackage, hne⟩)
  · obtain ⟨outer, hmem, o, ho, hknown, hi⟩ := hmember
    have houter : outer ∈ here.classes := hsuffix.subset (List.mem_cons_of_mem ctx hmem)
    exact .inl (mem_simpleSecondary.mpr ⟨.inl ⟨outer, houter, o, ho, hknown, hi⟩, hne⟩)
  · exact .inr howner

/-- Where a class of the first tier is loaded, a type name stands for that class. -/
theorem StandsFor.eq_first {name : TypeName} (h : st.StandsFor here name c)
    (hd : d ∈ st.typeCandidates name) (hl : st.IsLoaded d) : d = c := by
  rcases h with honly | ⟨hnone, _⟩
  · refine honly.only d hd ?_ hl
    rintro rfl
    exact st.empty_not_typeCandidate name hd
  · exact absurd hl (hnone d hd)

/-- Where none is, it stands for the one of the second tier that is loaded. -/
theorem StandsFor.second {name : TypeName} (h : st.StandsFor here name c)
    (hnone : ∀ d ∈ st.typeCandidates name, ¬ st.IsLoaded d) :
    st.OnlyLoaded (st.secondaryCandidates here name) c := by
  rcases h with honly | ⟨_, _, honly⟩
  · exact absurd hnone honly.not_none
  · exact honly

/-- A receiver that no variable and no enclosing class has the name of is a class of the tier that
the type rule reads. -/
theorem resolveSimple_tier (hx : here.scopes.lookup? x = none) (hc : here.classNamed? x = none)
    (hr : st.resolveSimple here x = .resolved r) :
    r.name ∈ st.typeCandidates ⟨[x]⟩ ∨
      (∀ d ∈ st.typeCandidates ⟨[x]⟩, ¬ st.IsLoaded d) ∧
        r.name ∈ st.secondaryCandidates here ⟨[x]⟩ := by
  unfold Surroundings.classNamed? at hc
  simp only [resolveSimple, hx, hc] at hr
  split at hr
  · rename_i hfree
    split at hr
    · rename_i hp
      have hnone := probe_unresolved.mp ⟨_, hp⟩
      refine .inr ⟨?_, (probe_resolved.mp hr).1.1.mem⟩
      intro d hd
      rw [mem_simpleCandidates, hfree] at hd
      simp only [List.flatMap_nil, List.not_mem_nil, false_or] at hd
      exact hnone d (by simp [hd.1]) hd.2
    · have honly := (probe_resolved.mp hr).1.1
      exact .inl (mem_simpleCandidates.mpr ⟨.inr (by simpa using honly.mem), honly.named⟩)
  · have honly := (probe_resolved.mp hr).1.1
    exact .inl (mem_simpleCandidates.mpr ⟨.inl honly.mem, honly.named⟩)

theorem resolveSimple_enclosing (hx : here.scopes.lookup? x = none)
    (hc : here.classNamed? x = some i) : st.resolveSimple here x = st.probe [i] none := by
  unfold Surroundings.classNamed? at hc
  simp only [resolveSimple, hx, hc]

/-- The enclosing class that a receiver stands for, where a type reference of the same name does not
consider it: some class of the first tier is loaded and this one is not among them, or none is and
this one is a member class that owns the document, for which the second tier has no candidate. -/
def ReceiverOnly (st : Setting) (here : Surroundings) (x c : String) : Prop :=
  here.classNamed? x = some c ∧
    ((∃ d ∈ st.typeCandidates ⟨[x]⟩, st.IsLoaded d) ∧ c ∉ st.typeCandidates ⟨[x]⟩ ∨
      (∀ d ∈ st.typeCandidates ⟨[x]⟩, ¬ st.IsLoaded d) ∧ c = st.source.document.owner ∧
        st.OwnsMember x ∧ c ∉ st.secondaryCandidates here ⟨[x]⟩)

/-- Wherever a pass stands, a name that no variable has stands for the same class as a type and as a
receiver, if it stands for one in both roles. The exceptions are exactly the enclosing classes that
only the receiver rule considers. -/
theorem type_and_receiver_agree (h : st.Standing done work p)
    (hx : p.here.scopes.lookup? x = none) (ht : st.resolveType p.here ⟨[x]⟩ = .resolved t)
    (hr : st.resolveSimple p.here x = .resolved r) :
    t.name = r.name ↔ ¬ st.ReceiverOnly p.here x r.name := by
  have hstands : st.StandsFor p.here ⟨[x]⟩ t.name := resolveType_names.mp ⟨t, ht, rfl⟩
  have hloaded : st.IsLoaded r.name := ⟨_, (resolveSimple_honest p.here x r hr).located⟩
  constructor
  · rintro hsame ⟨_, ⟨⟨d, hd, hl⟩, hnot⟩ | ⟨hnone, _, _, hnot⟩⟩
    · have hfirst : d = t.name := hstands.eq_first hd hl
      exact hnot (hsame ▸ hfirst ▸ hd)
    · exact hnot (hsame ▸ (hstands.second hnone).mem)
  · intro hnot
    by_contra hne
    have hfirst : r.name ∉ st.typeCandidates ⟨[x]⟩ := fun hmem =>
      hne (hstands.eq_first hmem hloaded).symm
    have hsecond : (∀ d ∈ st.typeCandidates ⟨[x]⟩, ¬ st.IsLoaded d) →
        r.name ∉ st.secondaryCandidates p.here ⟨[x]⟩ := by
      intro hnone hmem
      have honly := hstands.second hnone
      exact hne (honly.only r.name hmem (resolveSimple_honest p.here x r hr).named hloaded).symm
    cases hc : p.here.classNamed? x with
    | none =>
      rcases resolveSimple_tier hx hc hr with hmem | ⟨hnone, hmem⟩
      · exact hfirst hmem
      · exact hsecond hnone hmem
    | some i =>
      rw [resolveSimple_enclosing hx hc] at hr
      obtain rfl : r.name = i := by simpa using (probe_resolved.mp hr).1.1.mem
      apply hnot
      refine ⟨hc, ?_⟩
      by_cases hsome : ∃ d ∈ st.typeCandidates ⟨[x]⟩, st.IsLoaded d
      · exact .inl ⟨hsome, hfirst⟩
      · have hnone : ∀ d ∈ st.typeCandidates ⟨[x]⟩, ¬ st.IsLoaded d := by simpa using hsome
        obtain ⟨howner, hmember⟩ :=
          (secondary_of_classNamed h.wellNamed hc).resolve_left (hsecond hnone)
        exact .inr ⟨hnone, howner, hmember, hsecond hnone⟩

/-- The declaration of a class without a body, as all of a text. -/
def classNode (name : String) : Node :=
  .plain "class_declaration" 0 name.length [.mk "identifier" "name" true false 0 name.length []]

/-- The view of an owner whose text is the declaration of one class. -/
def ofClass (loaded : List String) (owner name : String) : Setting where
  corpus := ⟨[{ id := "demo.jar", entries := ⟨loaded.map fun c => (ClassName.entry c, [])⟩ }]⟩
  source := {
    document := ⟨name.toList, owner, "demo.jar"⟩
    root := .plain "program" 0 name.length [classNode name] }
  config := {}

/-- What a pass knows inside a class. -/
def insideClass (ctx : ClassContext) : Progress :=
  { here := ⟨⟨[⟨"class", {}⟩]⟩, [ctx]⟩ }

theorem ofClass_standing {loaded : List String} {owner name : String} {ctx : ClassContext}
    (h : (ofClass loaded owner name).classContext {} "program" (classNode name) = ctx) :
    ∃ done work, (ofClass loaded owner name).Standing done work (insideClass ctx) := by
  subst h
  have hstart : (ofClass loaded owner name).importPass.Yields {} := .done _
  exact ⟨_, _, {}, hstart, Turns.start.turn (.done _)⟩

/-- Inside the only class of a package both rules give that class, and it is not the receiver's
alone. -/
theorem type_and_receiver_agree_inside_owner :
    let st := ofClass ["demo/Main"] "demo/Main" "Main"
    let p := insideClass ⟨some "demo/Main", some "Main"⟩
    let t : Target := ⟨"demo.jar", "demo/Main", some "Main", none⟩
    let r : Target := ⟨"demo.jar", "demo/Main", none, none⟩
    (∃ done work, st.Standing done work p) ∧ p.here.scopes.lookup? "Main" = none ∧
      st.resolveType p.here ⟨["Main"]⟩ = .resolved t ∧ st.resolveSimple p.here "Main" = .resolved r ∧
      (t.name = r.name ↔ ¬ st.ReceiverOnly p.here "Main" r.name) := by
  intro st p t r
  obtain ⟨done, work, hstanding⟩ : ∃ done work, st.Standing done work p :=
    ofClass_standing (by decide)
  have ht : st.resolveType p.here ⟨["Main"]⟩ = .resolved t := by decide
  have hr : st.resolveSimple p.here "Main" = .resolved r := by decide
  exact ⟨⟨done, work, hstanding⟩, rfl, ht, hr, type_and_receiver_agree hstanding rfl ht hr⟩

/-- The rules differ where the package that needs no import has a class of the enclosing one's name,
and in the view of a member class whose package has a class of its name. -/
theorem receiver_differs_from_type :
    (let st := ofClass ["demo/Main", "java/lang/Main"] "demo/Main" "Main"
     let p := insideClass ⟨some "demo/Main", some "Main"⟩
     (∃ done work, st.Standing done work p) ∧ p.here.scopes.lookup? "Main" = none ∧
       st.resolveType p.here ⟨["Main"]⟩ = .resolved ⟨"demo.jar", "java/lang/Main", some "Main", none⟩ ∧
       st.resolveSimple p.here "Main" = .resolved ⟨"demo.jar", "demo/Main", none, none⟩) ∧
    (let st := ofClass ["demo/Main$Part", "demo/Part"] "demo/Main$Part" "Part"
     let p := insideClass ⟨some "demo/Main$Part", some "Part"⟩
     (∃ done work, st.Standing done work p) ∧ p.here.scopes.lookup? "Part" = none ∧
       st.resolveType p.here ⟨["Part"]⟩ = .resolved ⟨"demo.jar", "demo/Part", some "Part", none⟩ ∧
       st.resolveSimple p.here "Part" = .resolved ⟨"demo.jar", "demo/Main$Part", none, none⟩) := by
  refine ⟨?_, ?_⟩
  · exact ⟨ofClass_standing (by decide), rfl, by decide, by decide⟩
  · exact ⟨ofClass_standing (by decide), rfl, by decide, by decide⟩

end Setting
end SourceLinks
