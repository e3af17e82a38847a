import SourceLinks.Proofs.Turns

namespace SourceLinks

namespace Role

/-- The kind of the scope that a node of this role opens. -/
def scope? : Role → Option String
  | .typeDeclaration | .anonymousClassBody => some "class"
  | .method => some "method"
  | .lambda => some "lambda"
  | .block => some "block"
  | .forLoop | .forEach => some "for"
  | .tryWithResources => some "try_with_resources"
  | .catchClause => some "catch"
  | _ => none

def opensScope (role : Role) : Bool :=
  role.scope?.isSome

def opensClass (role : Role) : Bool :=
  role == .typeDeclaration || role == .anonymousClassBody

/-- An exit is left behind by exactly those nodes that open a scope, and it closes what they open. -/
theorem exitOf_eq (role : Role) :
    Work.exitOf? role =
      if role.opensScope then some (.exit 1 (if role.opensClass then 1 else 0)) else none := by
  cases role <;> rfl

theorem opensScope_of_opensClass {role : Role} (h : role.opensClass = true) :
    role.opensScope = true := by
  cases role <;> simp_all [opensClass, opensScope, scope?]

end Role

/-- What a node declares: the variables of its header if it opens a scope, or those of a resource or
a local declaration. -/
def Source.declaredBy (s : Source) (e : Entry) : List Declared :=
  match e.role with
  | .typeDeclaration => s.memberFields e.node
  | .anonymousClassBody => s.bodyFields none e.node
  | .method => s.parameters (e.node.child? "parameters")
  | .lambda => s.lambdaParameters e.node
  | .forEach => s.loopVariable e.node
  | .catchClause => s.catchParameter e.node
  | .resource => s.resourceVariable e.node
  | .localDeclaration => s.declaredVariables e.node
  | _ => []

namespace Setting
variable {st : Setting} {p q : Progress} {node : Node} {kind : String} {e : Entry}

/-- The class that a node opens, where it stands. -/
def classOf? (st : Setting) (e : Entry) (here : Surroundings) : Option ClassContext :=
  match e.role with
  | .typeDeclaration => some (st.classContext here e.parent e.node)
  | .anonymousClassBody => some .unknown
  | _ => none

/-- The surroundings of a node's children: at most one scope and one class are opened, and what the
node declares goes into the scope that is innermost then. -/
def surround (st : Setting) (e : Entry) (here : Surroundings) : Surroundings where
  scopes := ((e.role.scope?.map here.scopes.push).getD here.scopes).bindAll (st.source.declaredBy e)
  classes := (st.classOf? e here).toList ++ here.classes

theorem classOf_length (st : Setting) (e : Entry) (here : Surroundings) :
    (st.classOf? e here).toList.length = if e.role.opensClass then 1 else 0 := by
  unfold classOf?
  cases e.role <;> rfl

/-- What is known after the outcome of one reference is recorded. -/
def recorded (st : Setting) (p : Progress) (node : Node) (kind : String) : Resolution → Progress
  | .resolved target =>
    match st.linkOf node target kind with
    | .ok link => p.addLink link
    | .error why => p.countMishap (.outOfRange why)
  | res => p.countUnlinked res

theorem mishap_yields {why : Mishap} : (st.mishap p why).Yields q ↔ q = p.countMishap why := by
  unfold mishap
  cases why <;> simp

/-- Recording an outcome asks no archive. -/
theorem emit_yields {res : Resolution} :
    (st.emit p node kind res).Yields q ↔ q = st.recorded p node kind res := by
  unfold emit recorded
  cases res with
  | resolved target =>
    cases hl : st.linkOf node target kind with
    | ok link => simp [hl]
    | error why => simp [hl, mishap_yields]
  | unresolved reason => simp
  | ambiguous candidates => simp
  | unsupported reason => simp

theorem countUnlinked_here (p : Progress) (res : Resolution) :
    (p.countUnlinked res).here = p.here := by
  cases res <;> rfl

theorem recorded_here (st : Setting) (p : Progress) (node : Node) (kind : String) (res : Resolution) :
    (st.recorded p node kind res).here = p.here := by
  cases res with
  | resolved target =>
    simp only [recorded]
    split <;> rfl
  | _ => exact countUnlinked_here p _

theorem linkType_yields (h : (st.linkType p node).Yields q) :
    (st.source.typeName? node = none ∧ q = p) ∨
    ∃ name, st.source.typeName? node = some name ∧
      q = st.recorded p node "type" (st.resolveType p.here name) := by
  unfold linkType at h
  cases hn : st.source.typeName? node with
  | none =>
    simp only [hn, Inquiry.pure_eq, Inquiry.yields_done] at h
    exact .inl ⟨rfl, h⟩
  | some name =>
    simp only [hn, emit_yields] at h
    exact .inr ⟨name, rfl, h⟩

/-- A call without a name is passed over; any other is resolved, and its outcome or the crash is
recorded. -/
theorem linkCall_yields (h : (st.linkCall p node).Yields q) :
    (node.child? "name" = none ∧ q = p) ∨
    ∃ nameNode outcome calls, node.child? "name" = some nameNode ∧
      (st.resolveCall p.here st.config.maxChainDepth.toNat p.calls node).Yields (outcome, calls) ∧
      ((∃ res, outcome = .ok res ∧ q = st.recorded { p with calls } nameNode "method" res) ∨
        ∃ crash, outcome = .error crash ∧ q = Progress.countMishap { p with calls } (.crash crash)) := by
  unfold linkCall at h
  cases hn : node.child? "name" with
  | none =>
    simp only [hn, Inquiry.pure_eq, Inquiry.yields_done] at h
    exact .inl ⟨rfl, h⟩
  | some nameNode =>
    simp only [hn, Inquiry.yields_bind] at h
    obtain ⟨⟨outcome, calls⟩, hcall, hq⟩ := h
    refine .inr ⟨nameNode, outcome, calls, rfl, hcall, ?_⟩
    cases outcome with
    | ok res => exact .inl ⟨res, rfl, emit_yields.mp hq⟩
    | error crash => exact .inr ⟨crash, rfl, mishap_yields.mp hq⟩

theorem linkImport_yields {d : Import} (h : (st.linkImport p d).Yields q) :
    q = if d.isSingleType then
        st.recorded p d.node "import" (st.probe (ClassName.nestedForms d.internal) none)
      else p := by
  unfold linkImport at h
  split at h
  · rename_i hd
    rw [if_pos hd]
    exact emit_yields.mp h
  · rename_i hd
    rw [if_neg hd]
    exact Inquiry.yields_done.mp h

theorem linkType_here (h : (st.linkType p node).Yields q) : q.here = p.here := by
  rcases linkType_yields h with ⟨_, rfl⟩ | ⟨name, _, rfl⟩
  · rfl
  · exact recorded_here ..

theorem linkCall_here (h : (st.linkCall p node).Yields q) : q.here = p.here := by
  rcases linkCall_yields h with ⟨_, rfl⟩ | ⟨nameNode, outcome, calls, _, _, hq⟩
  · rfl
  · rcases hq with ⟨res, _, rfl⟩ | ⟨crash, _, rfl⟩
    · exact recorded_here ..
    · rfl

/-- A reference may get a link, and leaves the surroundings alone; any other node does no more than
change them. -/
theorem enter_cases (h : (st.enter e.parent e.node p).Yields q) :
    (e.role = .typeReference ∧ (st.linkType p e.node).Yields q) ∨
    (e.role = .methodCall ∧ (st.linkCall p e.node).Yields q) ∨
    q = { p with here := st.surround e p.here } := by
  unfold enter at h
  cases hr : Role.under e.parent e.node.kind with
  | typeReference =>
    simp only [hr] at h
    exact .inl ⟨hr, h⟩
  | methodCall =>
    simp only [hr] at h
    exact .inr (.inl ⟨hr, h⟩)
  | _ =>
    simp only [hr, Inquiry.pure_eq, Inquiry.yields_done] at h
    rw [h]
    simp [surround, Entry.role, hr, Role.scope?, Source.declaredBy, classOf?, Scopes.bindAll,
      Progress.enterClass, Progress.enterScope, Progress.declare]

theorem enter_typeReference (hr : e.role = .typeReference) (st : Setting) (p : Progress) :
    st.enter e.parent e.node p = st.linkType p e.node := by
  have hunder : Role.under e.parent e.node.kind = .typeReference := hr
  simp only [enter, hunder]

theorem enter_methodCall (hr : e.role = .methodCall) (st : Setting) (p : Progress) :
    st.enter e.parent e.node p = st.linkCall p e.node := by
  have hunder : Role.under e.parent e.node.kind = .methodCall := hr
  simp only [enter, hunder]

theorem surround_reference (hr : e.role = .typeReference ∨ e.role = .methodCall)
    (here : Surroundings) : st.surround e here = here := by
  rcases hr with hr | hr <;>
    simp [surround, hr, Role.scope?, Source.declaredBy, classOf?, Scopes.bindAll]

/-- What entering a node does to the surroundings, whatever the archives answer. -/
theorem enter_here (h : (st.enter e.parent e.node p).Yields q) : q.here = st.surround e p.here := by
  rcases enter_cases h with ⟨hr, ht⟩ | ⟨hr, hc⟩ | rfl
  · rw [linkType_here ht, surround_reference (.inl hr)]
  · rw [linkCall_here hc, surround_reference (.inr hr)]
  · rfl

end Setting
end SourceLinks
