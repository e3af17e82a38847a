import SourceLinks.Proofs.CallOrigins

namespace SourceLinks

/-- The declarations that can have type variables. -/
def genericKinds : List String :=
  ["class_declaration", "interface_declaration", "record_declaration", "method_declaration",
    "constructor_declaration"]

namespace Source

/-- The type variables that a declaration declares, by name. -/
def typeVariables (s : Source) (n : Node) : List String :=
  let below (kind : String) (nodes : List Node) : List Node :=
    (nodes.flatMap Node.children).filter fun c => c.kind == kind
  (below "type_identifier" (below "type_parameter" (below "type_parameters" [n]))).map s.text

/-- Some declaration around a place declares a type variable of this name. -/
def TypeVariableAt (s : Source) (π : Place) (x : String) : Prop :=
  ∃ σ e, σ <+: π ∧ s.entryAt? σ = some e ∧ e.node.kind ∈ genericKinds ∧ x ∈ s.typeVariables e.node

end Source

namespace Setting
variable {st : Setting} {here : Surroundings} {type : TypeName} {c d : String}

theorem StandsFor.unique (hc : st.StandsFor here type c) (hd : st.StandsFor here type d) : c = d := by
  obtain ⟨t, ht, rfl⟩ := resolveType_names.mpr hc
  obtain ⟨t', ht', rfl⟩ := resolveType_names.mpr hd
  cases ht.symm.trans ht'
  rfl

theorem StandsFor.loaded (hc : st.StandsFor here type c) : st.IsLoaded c := by
  rcases hc with honly | ⟨_, _, honly⟩
  · exact honly.loaded
  · exact honly.loaded

/-- The class that a simple name stands for at a place if it is taken for that of a class. -/
def NamesClassAt (st : Setting) (π : Place) (x c : String) : Prop :=
  st.StandsFor ⟨{}, st.classesAt π.dropLast⟩ ⟨[x]⟩ c

theorem standsFor_eq {π : Place} (h : here.classes = st.classesAt π.dropLast) (x : String) :
    st.StandsFor here ⟨[x]⟩ = st.NamesClassAt π x :=
  standsFor_congr h ⟨[x]⟩

section Calls
variable {n obj name : Node} {memo memo' : CallMemo} {res : Resolution}
  {chained : Option (CallMemo → Node → Inquiry CallOutcome)}

/-- A call on a variable comes to a method of the class that the variable's type stands for. -/
theorem freshCall_declared (hname : n.child? "name" = some name) (hobj : n.child? "object" = some obj)
    (hkind : obj.kind = "identifier")
    (hdeclared : here.scopes.lookup? (st.source.text obj) = some (some type))
    (h : (st.freshCall here chained memo n).Yields (.ok res, memo')) :
    st.ComesOf name (st.StandsFor here type) res := by
  have hother : obj.kind ≠ "method_invocation" := by simp [hkind]
  have hreceiver : st.plainReceiver here obj = pure (st.resolveType here type) := by
    simp only [plainReceiver, hkind, resolveSimple, hdeclared]
  simp only [freshCall, hname, hobj, if_neg hother, hreceiver] at h
  rw [Inquiry.yields_bind] at h
  obtain ⟨received, hreceived, h⟩ := h
  obtain rfl := Inquiry.yields_done.mp hreceived
  rcases methodOf_yields h with ⟨owner, howner, hmethod⟩ | ⟨hres, hunresolved⟩
  · have hresolved : st.resolveType here type = .resolved owner := Except.ok.inj howner
    have hfound := resolveType_honest here type owner hresolved
    exact .inl ⟨owner.name, owner.archive, resolveType_names.mp ⟨owner, hresolved, rfl⟩,
      hfound.located, hmethod⟩
  · refine .inr ⟨?_, hunresolved⟩
    intro c hc
    obtain ⟨t, ht, -⟩ := resolveType_names.mpr hc
    exact hunresolved t ((Except.ok.inj hres).symm.trans ht)

end Calls

variable {π : Place} {e : Entry} {p q : Progress} {k : Nat}

/-- The node that declares a type variable is no use of it. -/
theorem Enters.declared_variable (h : st.Enters k e p q) (hparent : e.parent = "type_parameter")
    (hkind : e.node.kind = "type_identifier") : q.links = p.links := by
  obtain ⟨_, _, _, _, _, hq⟩ := h
  have hrole : e.role = .other := by
    rw [Entry.role, hparent, hkind]
    rfl
  rcases enter_cases hq with ⟨htype, _⟩ | ⟨hcall, _⟩ | rfl
  · rw [hrole] at htype
    cases htype
  · rw [hrole] at hcall
    cases hcall
  · rfl

/-- A type reference gets no link if its name stands for no class. -/
theorem Enters.unknown_type (h : st.Enters k e p q) (hrole : e.role = .typeReference)
    (hname : st.source.typeName? e.node = some type)
    (hnone : ∀ c, ¬ st.StandsFor p.here type c) : q.links = p.links := by
  obtain ⟨_, _, _, _, _, hq⟩ := h
  rw [enter_typeReference hrole] at hq
  rcases linkType_yields hq with ⟨_, rfl⟩ | ⟨name, hsome, rfl⟩
  · rfl
  · cases hname.symm.trans hsome
    have hunresolved : ∀ t, st.resolveType p.here type ≠ .resolved t := by
      intro t ht
      exact hnone t.name (resolveType_names.mp ⟨t, ht, rfl⟩)
    rw [recorded_links, linksFor_eq_nil hunresolved, List.append_nil]

/-- Type variables are read as names of classes. The node that declares one gets no link. A use of its
name as a type is linked exactly to the class that the name would stand for there if no variable had
it, and so is a call on something whose nearest declaration has the variable as its type, to the method
found from that class on. Neither gets a link where the name stands for no class. -/
theorem type_variables_are_read_as_classes (h : st.Enters k e p q)
    (hk : st.source.places[k]? = some π) :
    (e.parent = "type_parameter" → e.node.kind = "type_identifier" → q.links = p.links) ∧
    (∀ x, st.source.TypeVariableAt π x → e.role = .typeReference →
      st.source.typeName? e.node = some ⟨[x]⟩ →
      ((∀ c, ¬ st.NamesClassAt π x c) → q.links = p.links) ∧
      (st.InRange e.node → st.Adds p q e.node "type" (st.NamesClassAt π x))) ∧
    ((st.source.calls.map Node.span).Nodup → (∀ c ∈ st.source.calls, c.ReceiverFirst) →
      ∀ x σ obj name, st.source.TypeVariableAt σ x → e.role = .methodCall →
      e.node.child? "object" = some obj → obj.kind = "identifier" →
      e.node.child? "name" = some name →
      st.source.visible (st.source.places.take k) π.dropLast (st.source.text obj) =
        some (some ⟨[x]⟩) →
      ((∀ c, ¬ st.NamesClassAt π x c) → q.links = p.links) ∧
      ∀ c, st.NamesClassAt π x c → st.LinksMethodOf p q name c) := by
  have hclasses := (h.classes hk).1
  refine ⟨fun hparent hkind => h.declared_variable hparent hkind, ?_, ?_⟩
  · intro x _ hrole hname
    have hsame := standsFor_eq hclasses x
    constructor
    · intro hnone
      rw [← hsame] at hnone
      exact h.unknown_type hrole hname hnone
    · intro hrange
      obtain ⟨_, _, _, _, _, hq⟩ := h
      rw [enter_typeReference hrole] at hq
      rw [← hsame]
      exact linkType_adds hname hrange hq
  · intro hspans hfirst x σ obj name _ hrole hobj hkind hname hdeclared
    refine h.links_method hspans hk hrole hname (fun c hc => hc.loaded) (fun c d => StandsFor.unique) ?_
    intro here chained memo memo' res hsur hfresh
    rw [← standsFor_eq hsur.classes x]
    exact freshCall_declared hname hobj hkind ((hsur.meanings hfirst _).trans hdeclared) hfresh

/-- A class, the only one loaded, has the name of a type variable. -/
def loadedNamesake : Archive where
  id := "demo.jar"
  entries := ⟨[("demo/T.class", ClassFile.plain "demo/T" "java/lang/Object" [⟨"go", "()V"⟩])]⟩

/-- A field of a type that is a variable of the class. -/
def variableField : Node :=
  .plain "field_declaration" 16 20 [.mk "type_identifier" "type" true false 16 17 [],
    .mk "variable_declarator" "declarator" true false 18 19
      [.mk "identifier" "name" true false 18 19 []]]

def callOnField : Node :=
  .plain "method_invocation" 32 38
    [.mk "identifier" "object" true false 32 33 [], .mk "identifier" "name" true false 34 36 []]

/-- A method calls another on such a field. -/
def genericClass : Setting :=
  let parameters := Node.mk "type_parameters" "type_parameters" true false 10 13
    [.plain "type_parameter" 11 12 [.plain "type_identifier" 11 12 []]]
  let method := Node.plain "method_declaration" 21 41
    [.mk "identifier" "name" true false 26 27 [], .mk "block" "body" true false 30 41 [callOnField]]
  ofText [loadedNamesake] "class Main<T> { T x; void m() { x.go(); } }"
    (.plain "program" 0 43 [.plain "class_declaration" 0 43
      [.mk "identifier" "name" true false 6 10 [], parameters,
        .mk "class_body" "body" true false 14 43 [variableField, method]]])

theorem genericClass_variable {π : Place} (hπ : [0] <+: π) :
    genericClass.source.TypeVariableAt π "T" :=
  ⟨[0], _, hπ, rfl, by decide, by decide⟩

/-- The nearest declaration of what the call is made on has the type variable as its type. -/
theorem genericClass_visible :
    genericClass.source.visible (genericClass.source.places.take 13) [0, 2, 1, 1] "x" =
      some (some ⟨["T"]⟩) := by
  decide

theorem type_variables_are_read_as_classes_of_namesake :
    let st := genericClass
    ∃ p q name, st.Enters 13 ⟨"block", callOnField⟩ p q ∧ callOnField.child? "name" = some name ∧
      st.source.TypeVariableAt [0, 2, 1, 1, 0] "T" ∧
      st.NamesClassAt [0, 2, 1, 1, 0] "T" "demo/T" ∧ st.LinksMethodOf p q name "demo/T" := by
  intro st
  have hk : st.source.places[13]? = some [0, 2, 1, 1, 0] := by decide
  have hvariable := genericClass_variable (π := [0, 2, 1, 1, 0]) (by decide)
  have hclass : st.NamesClassAt [0, 2, 1, 1, 0] "T" "demo/T" :=
    resolveType_names.mp ⟨⟨"demo.jar", "demo/T", some "T", none⟩, by decide, rfl⟩
  obtain ⟨e, p, q, h⟩ := enters_every_place st hk
  obtain rfl : ⟨"block", callOnField⟩ = e := Option.some.inj (h.entry hk)
  have hlinks := (type_variables_are_read_as_classes h hk).2.2 (by decide) (by decide) "T" _ _ _
    hvariable rfl rfl rfl rfl genericClass_visible
  exact ⟨p, q, _, h, rfl, hvariable, hclass, hlinks.2 "demo/T" hclass⟩

/-- With a class of its name loaded, a type variable gets a link where it is used as a type, and so does
a call on something of its type. -/
theorem type_variable_is_linked_to_namesake :
    let st := genericClass
    st.source.entryAt? [0, 2, 0, 0] =
        some ⟨"field_declaration", .mk "type_identifier" "type" true false 16 17 []⟩ ∧
      st.source.TypeVariableAt [0, 2, 0, 0] "T" ∧
      ⟨16, 17, 1, 17, "demo.jar", "demo/T", some "T", "type"⟩ ∈
        ((st.resolve fun _ => false).run st.corpus).1.1.links ∧
      st.source.entryAt? [0, 2, 1, 1, 0] = some ⟨"block", callOnField⟩ ∧
      st.source.visible (st.source.places.take 13) [0, 2, 1, 1] "x" = some (some ⟨["T"]⟩) ∧
      ⟨34, 36, 1, 35, "demo.jar", "demo/T", some "go", "method"⟩ ∈
        ((st.resolve fun _ => false).run st.corpus).1.1.links :=
  ⟨rfl, genericClass_variable (by decide), by decide +kernel, rfl, genericClass_visible,
    by decide +kernel⟩

end Setting
end SourceLinks
