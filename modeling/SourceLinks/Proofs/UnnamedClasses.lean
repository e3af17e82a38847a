import SourceLinks.Proofs.CallOrigins

namespace SourceLinks

/-- The source shows no internal name for the class at a place: it is anonymous, it is declared neither
at the top of the document nor among the members of another class, or it is declared anywhere in such a
class. -/
inductive Source.Unnamed (s : Source) : Place → Prop where
  | anonymous {τ : Place} {e : Entry} (hat : s.entryAt? τ = some e)
      (hrole : e.role = .anonymousClassBody) : Unnamed s τ
  | localClass {τ : Place} {e : Entry} (hat : s.entryAt? τ = some e) (hrole : e.role = .typeDeclaration)
      (htop : e.parent ≠ "program") (hbody : e.parent ∉ Setting.memberBodies) : Unnamed s τ
  | member {τ σ : Place} {e : Entry} (hat : s.entryAt? τ = some e) (hrole : e.role = .typeDeclaration)
      (htop : e.parent ≠ "program") (hinside : s.classAt? τ.dropLast = some σ)
      (houter : Unnamed s σ) : Unnamed s τ

/-- A call on nothing, on `this` or on `super`. -/
def Node.Unqualified (n : Node) : Prop :=
  ∀ obj, n.child? "object" = some obj → obj.kind = "this" ∨ obj.kind = "super"

namespace Setting
variable {st : Setting} {π τ : Place} {here : Surroundings} {e : Entry} {n name : Node}
  {memo memo' : CallMemo} {res : Resolution} {k : Nat} {p q : Progress}
  {chained : Option (CallMemo → Node → Inquiry CallOutcome)}

/-- Below the top of the document a class has an internal name only among the members of a class that
has one. -/
theorem classContext_unknown {parent : String} (htop : parent ≠ "program")
    (h : parent ∉ memberBodies ∨ here.enclosing.internal = none) (node : Node) :
    (st.classContext here parent node).internal = none := by
  unfold classContext
  simp only [if_neg htop]
  split
  · rfl
  · rfl
  split
  · rfl
  · rfl
  · rename_i outer _ houter
    rcases h with hbody | hnone
    · rw [if_neg (by simpa using hbody)]
    · rw [hnone] at houter
      cases houter

theorem classesAt_entry (hat : st.source.entryAt? τ = some e) (hclass : e.role.opensClass = true) :
    ∃ ctx, st.classOf? e ⟨{}, st.classesAt τ.dropLast⟩ = some ctx ∧
      st.classesAt τ = ctx :: st.classesAt τ.dropLast := by
  have hopens : st.source.opensClassAt τ = true := by simpa [Source.opensClassAt, hat] using hclass
  obtain ⟨ctx, hctx, hclasses⟩ := st.classesAt_opened hopens
  rw [classOpened?, hat, Option.bind_some] at hctx
  exact ⟨ctx, hctx, hclasses⟩

/-- A class for which the source shows no internal name has none. -/
theorem unnamed_unknown (h : st.source.Unnamed τ) :
    (Surroundings.enclosing ⟨{}, st.classesAt τ⟩).internal = none := by
  induction h with
  | @anonymous τ e hat hrole =>
    obtain ⟨ctx, hctx, hclasses⟩ := classesAt_entry hat (by rw [hrole]; rfl)
    simp only [classOf?, hrole, Option.some.injEq] at hctx
    rw [Surroundings.enclosing, hclasses, ← hctx]
    rfl
  | @localClass τ e hat hrole htop hbody =>
    obtain ⟨ctx, hctx, hclasses⟩ := classesAt_entry hat (by rw [hrole]; rfl)
    simp only [classOf?, hrole, Option.some.injEq] at hctx
    rw [Surroundings.enclosing, hclasses, ← hctx]
    exact classContext_unknown htop (.inl hbody) e.node
  | @member τ σ e hat hrole htop hinside houter ih =>
    obtain ⟨ctx, hctx, hclasses⟩ := classesAt_entry hat (by rw [hrole]; rfl)
    simp only [classOf?, hrole, Option.some.injEq] at hctx
    rw [Surroundings.enclosing, hclasses, ← hctx]
    refine classContext_unknown htop (.inr ?_) e.node
    rwa [classesAt_class hinside]

/-- A call of a member, on nothing, that static imports take from this class and from no other that is
loaded. -/
def ImportsFrom (st : Setting) (n name : Node) (c : String) : Prop :=
  n.child? "object" = none ∧
    st.OnlyLoaded ((st.imports.ownersOf (st.source.text name)).flatMap ClassName.nestedForms) c

section Unknown
variable (hnone : here.enclosing.internal = none)
include hnone

theorem thisClass_unknown (st : Setting) :
    st.thisClass here = .unresolved "enclosing class unknown" := by
  simp only [thisClass, hnone]

/-- In a class without a name there is nothing to call on `this` or `super`. -/
theorem plainReceiver_unknown {obj : Node} {outcome : Verdict}
    (hkind : obj.kind = "this" ∨ obj.kind = "super")
    (h : (st.plainReceiver here obj).run.Yields outcome) :
    outcome = .ok (.unresolved "enclosing class unknown") := by
  rcases hkind with hkind | hkind
  · simpa [plainReceiver, hkind, thisClass_unknown hnone st] using h
  · simpa [plainReceiver, hkind, superClass, hnone] using h

/-- No method of such a class comes before a static import. -/
theorem bareStaticCall_unknown {method : String}
    (h : (st.bareStaticCall here method).Yields res) :
    (∃ owner, st.probe ((st.imports.ownersOf method).flatMap ClassName.nestedForms) none =
        .resolved owner ∧ (st.locateMethod owner method).Yields res) ∨
      st.probe ((st.imports.ownersOf method).flatMap ClassName.nestedForms) none = res ∧
        ∀ t, res ≠ .resolved t := by
  simp only [bareStaticCall, ownMethod?, thisClass_unknown hnone, pure_bind] at h
  split at h
  · rename_i owner howner
    exact .inl ⟨owner, howner, h⟩
  · rename_i hother
    rw [Attempt.yields_pure] at h
    subst h
    exact .inr ⟨rfl, fun t ht => hother t ht⟩

/-- An unqualified call in a class without a name comes to a method only through a static import, and
then through that import alone. -/
theorem freshCall_unknown (hunq : n.Unqualified) (hname : n.child? "name" = some name)
    (h : (st.freshCall here chained memo n).Yields (.ok res, memo')) :
    st.ComesOf name (st.ImportsFrom n name) res := by
  simp only [freshCall, hname] at h
  split at h
  · rename_i hobj
    split at h
    · rename_i hempty
      rw [thisClass_unknown hnone] at h
      rcases methodOf_yields h with ⟨owner, howner, -⟩ | ⟨-, hres⟩
      · cases howner
      refine .inr ⟨?_, hres⟩
      intro c himports
      have hmem := himports.2.mem
      rw [List.isEmpty_iff.mp hempty] at hmem
      simp at hmem
    · rw [Inquiry.yields_bind] at h
      obtain ⟨outcome, houtcome, h⟩ := h
      obtain ⟨rfl, -⟩ := Inquiry.yields_pair.mp h
      rcases bareStaticCall_unknown hnone houtcome with ⟨owner, howner, hmethod⟩ | ⟨hprobe, hres⟩
      · obtain ⟨⟨honly, hat⟩, -⟩ := probe_resolved.mp howner
        exact .inl ⟨owner.name, owner.archive, ⟨hobj, honly⟩, hat, hmethod⟩
      · refine .inr ⟨?_, hres⟩
        intro c himports
        obtain ⟨t, ht, -⟩ := (probe_names none).mpr himports.2
        exact hres t (hprobe.symm.trans ht)
  · rename_i obj hobj
    have hkind := hunq obj hobj
    have hother : obj.kind ≠ "method_invocation" := by
      rcases hkind with hkind | hkind <;> simp [hkind]
    rw [if_neg hother, Inquiry.yields_bind] at h
    obtain ⟨received, hreceived, h⟩ := h
    rw [plainReceiver_unknown hnone hkind hreceived] at h
    rcases methodOf_yields h with ⟨owner, howner, -⟩ | ⟨-, hres⟩
    · cases howner
    refine .inr ⟨?_, hres⟩
    intro c himports
    rw [himports.1] at hobj
    cases hobj

end Unknown

/-- Calls in classes without a name are left alone, but for those of statically imported methods. An
unqualified call whose innermost class is anonymous, local or declared in such a class gets no link,
unless it is made on nothing and static imports take its method from one loaded class. Then it is
linked as a call of the method of that class, whatever the classes around it declare. -/
theorem unnamed_class_links_imported_methods_only
    (hspans : (st.source.calls.map Node.span).Nodup) (h : st.Enters k e p q)
    (hk : st.source.places[k]? = some π) (hrole : e.role = .methodCall)
    (hunq : e.node.Unqualified) (hclass : st.source.classAt? π = some τ)
    (hunnamed : st.source.Unnamed τ) :
    (e.node.child? "name" = none → q.links = p.links) ∧
    ∀ name, e.node.child? "name" = some name →
      ((∀ c, ¬ st.ImportsFrom e.node name c) → q.links = p.links) ∧
      ∀ c, st.ImportsFrom e.node name c → st.LinksMethodOf p q name c := by
  have hcall : st.source.opensClassAt π = false := by
    simp [Source.opensClassAt, h.entry hk, hrole, Role.opensClass]
  constructor
  · intro hnone
    rcases h.call hspans hk hrole with ⟨-, rfl⟩ | ⟨name, calls, hname, -⟩
    · rfl
    · rw [hnone] at hname
      cases hname
  · intro name hname
    refine h.links_method hspans hk hrole hname (fun c hc => hc.2.loaded) ?_ ?_
    · intro c d hc hd
      exact hd.2.only c hc.2.mem hc.2.named hc.2.loaded
    · intro here chained memo memo' res hsur hfresh
      have hclasses : here.classes = st.classesAt τ := by
        rw [hsur.classes, ← classesAt_around hcall, classesAt_class hclass]
      have hunknown : here.enclosing.internal = none := by
        rw [Surroundings.enclosing, hclasses]
        exact unnamed_unknown hunnamed
      exact freshCall_unknown hunknown hunq hname hfresh

/-- A call of `next` on nothing. -/
def bareNext : Node :=
  .plain "method_invocation" 61 67 [.mk "identifier" "name" true false 61 65 []]

/-- An anonymous class declares a method of its own that has the name of a statically imported one, and
calls it. -/
def anonymousNamesake : Setting :=
  let imported := Node.plain "import_declaration" 0 29
    [.mk "static" "" false false 7 13 [], .plain "scoped_identifier" 14 28 []]
  let method := Node.plain "method_declaration" 43 58
    [.mk "type_identifier" "type" true false 43 47 [], .mk "identifier" "name" true false 48 52 [],
      .mk "formal_parameters" "parameters" true false 52 54 [], .mk "block" "body" true false 55 58 []]
  let body := Node.plain "class_body" 41 72 [method, .plain "block" 59 70 [bareNext]]
  ofText [Archive.pair] "import static demo.Base.next;\nnew Main() { Main next() { } { next(); } }"
    (.plain "program" 0 72 [imported, .plain "object_creation_expression" 30 72
      [.mk "type_identifier" "type" true false 34 38 [], body]])

theorem anonymousNamesake_unnamed :
    anonymousNamesake.source.classAt? [1, 1, 1, 0] = some [1, 1] ∧
      anonymousNamesake.source.Unnamed [1, 1] :=
  ⟨by decide, .anonymous rfl rfl⟩

theorem bareNext_unqualified : bareNext.Unqualified := by
  intro obj hobj
  cases hobj

theorem unnamed_class_links_imported_methods_only_of_base :
    let st := anonymousNamesake
    ∃ p q name, st.Enters 9 ⟨"block", bareNext⟩ p q ∧ bareNext.child? "name" = some name ∧
      st.ImportsFrom bareNext name "demo/Base" ∧ st.LinksMethodOf p q name "demo/Base" := by
  intro st
  have hk : st.source.places[9]? = some [1, 1, 1, 0] := by decide
  obtain ⟨hclass, hunnamed⟩ := anonymousNamesake_unnamed
  have himports : st.ImportsFrom bareNext (.mk "identifier" "name" true false 61 65 []) "demo/Base" :=
    ⟨rfl, (probe_names none).mp ⟨⟨"demo.jar", "demo/Base", none, none⟩, by decide, rfl⟩⟩
  obtain ⟨e, p, q, h⟩ := enters_every_place st hk
  obtain rfl : ⟨"block", bareNext⟩ = e := Option.some.inj (h.entry hk)
  have hlinks := unnamed_class_links_imported_methods_only (by decide) h hk rfl bareNext_unqualified
    hclass hunnamed
  exact ⟨p, q, _, h, rfl, himports, (hlinks.2 _ rfl).2 "demo/Base" himports⟩

/-- The call is of the anonymous class's own method, and is linked as one of the imported method. -/
theorem own_method_of_unnamed_class_is_linked_elsewhere :
    let st := anonymousNamesake
    st.source.places[9]? = some [1, 1, 1, 0] ∧
      st.source.entryAt? [1, 1, 1, 0] = some ⟨"block", bareNext⟩ ∧ bareNext.Unqualified ∧
      st.source.classAt? [1, 1, 1, 0] = some [1, 1] ∧ st.source.Unnamed [1, 1] ∧
      ⟨61, 65, 2, 32, "demo.jar", "demo/Base", some "next", "method"⟩ ∈
        ((st.resolve fun _ => false).run st.corpus).1.1.links :=
  ⟨by decide, rfl, bareNext_unqualified, anonymousNamesake_unnamed.1, anonymousNamesake_unnamed.2,
    by decide +kernel⟩

end Setting
end SourceLinks
