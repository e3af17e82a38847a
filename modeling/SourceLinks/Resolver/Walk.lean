import SourceLinks.Declaration
import SourceLinks.Link
import SourceLinks.Resolver.Calls
import SourceLinks.Tree.Role

namespace SourceLinks

/-- How many references had which outcome. -/
structure Tally where
  links : Nat := 0
  unresolved : Nat := 0
  ambiguous : Nat := 0
  unsupported : Nat := 0
  errors : Nat := 0
  outOfRange : Nat := 0
deriving Repr, DecidableEq, Inhabited

/-- What a pass knows between two nodes. -/
structure Progress where
  here : Surroundings := {}
  calls : CallMemo := []
  links : LinkTable := []
  tally : Tally := {}
deriving Repr, Inhabited

/-- Why a reference that should have an outcome has none. -/
inductive Mishap where
  | crash (why : ReaderCrash)
  | outOfRange (why : OutOfRange)
deriving Repr, DecidableEq, Inhabited

namespace Progress

def addLink (p : Progress) (l : Link) : Progress :=
  { p with links := p.links ++ [l], tally := { p.tally with links := p.tally.links + 1 } }

/-- Counts a reference that got no link. -/
def countUnlinked (p : Progress) : Resolution → Progress
  | .resolved _ => p
  | .unresolved _ => { p with tally := { p.tally with unresolved := p.tally.unresolved + 1 } }
  | .ambiguous _ => { p with tally := { p.tally with ambiguous := p.tally.ambiguous + 1 } }
  | .unsupported _ => { p with tally := { p.tally with unsupported := p.tally.unsupported + 1 } }

def countMishap (p : Progress) : Mishap → Progress
  | .crash _ => { p with tally := { p.tally with errors := p.tally.errors + 1 } }
  | .outOfRange _ => { p with tally := { p.tally with outOfRange := p.tally.outOfRange + 1 } }

def enterScope (p : Progress) (kind : String) (vars : List Declared) : Progress :=
  { p with here := { p.here with scopes := (p.here.scopes.push kind).bindAll vars } }

def enterClass (p : Progress) (ctx : ClassContext) (vars : List Declared) : Progress :=
  { p with here := { p.here with classes := ctx :: p.here.classes } }.enterScope "class" vars

def declare (p : Progress) (vars : List Declared) : Progress :=
  { p with here := { p.here with scopes := p.here.scopes.bindAll vars } }

/-- Closes as many of the innermost scopes and classes. -/
def close (p : Progress) (scopes classes : Nat) : Progress :=
  { p with here := ⟨p.here.scopes.leave scopes, p.here.classes.drop classes⟩ }

end Progress

namespace Setting

def resolverLine (message : String) : LogLine := ⟨"resolver", message⟩

/-- A mishap costs the one reference it happened to. -/
def mishap (st : Setting) (p : Progress) (why : Mishap) : Inquiry Progress := do
  match why with
  | .outOfRange why => Inquiry.log (resolverLine s!"reference outside document: {why.message}")
  | .crash _ =>
    Inquiry.log (resolverLine s!"failed to resolve reference in {st.source.document.owner}")
  return p.countMishap why

/-- The link from a node to its target, if the node lies in the document. -/
def linkOf (st : Setting) (node : Node) (target : Target) (kind : String) : Except OutOfRange Link := do
  let start := st.source.startPosition node
  let (first, last) ← st.source.document.offsetIndex.span start (st.source.stopPosition node)
  return {
    start := first, stop := last, line := start.line, column := start.column
    archive := target.archive, name := target.name, anchor := target.anchor, kind }

/-- Records the outcome of one reference. Only a resolved one gets a link. -/
def emit (st : Setting) (p : Progress) (node : Node) (kind : String) (res : Resolution) :
    Inquiry Progress := do
  match res with
  | .resolved target =>
    match st.linkOf node target kind with
    | .ok link => return p.addLink link
    | .error why => st.mishap p (.outOfRange why)
  | res =>
    let row := (st.source.startPoint node).row + 1
    Inquiry.log (resolverLine s!"{kind} `{st.source.text node}` line {row}: {res.describe}")
    return p.countUnlinked res

def linkImport (st : Setting) (p : Progress) (d : Import) : Inquiry Progress :=
  if d.isSingleType then
    st.emit p d.node "import" (st.probe (ClassName.nestedForms d.internal) none)
  else return p

def linkType (st : Setting) (p : Progress) (node : Node) : Inquiry Progress :=
  match st.source.typeName? node with
  | none => return p
  | some name => st.emit p node "type" (st.resolveType p.here name)

def linkCall (st : Setting) (p : Progress) (node : Node) : Inquiry Progress :=
  match node.child? "name" with
  | none => return p
  | some nameNode => do
    let (outcome, calls) ← st.resolveCall p.here st.config.maxChainDepth.toNat p.calls node
    match outcome with
    | .ok res => st.emit { p with calls } nameNode "method" res
    | .error crash => st.mishap { p with calls } (.crash crash)

/-- Bodies whose type declarations are member classes. -/
def memberBodies : List String :=
  ["class_body", "interface_body", "enum_body_declarations", "annotation_type_body"]

/-- The names of a declared class under a parent of this kind. A class at the top is the document's
owner if the owner's name ends in it. -/
def classContext (st : Setting) (here : Surroundings) (parent : String) (node : Node) :
    ClassContext :=
  let doc := st.source.document
  match (node.child? "name").map st.source.text with
  | none | some "" => .unknown
  | some name =>
    if parent = "program" then
      let owner := doc.ownerSimpleName
      if name = owner ∨ ('$' :: name.toList).isSuffixOf owner.toList then ⟨some doc.owner, some name⟩
      else ⟨some (doc.package ++ name), some name⟩
    else
      match here.enclosing.internal with
      | none | some "" => ⟨none, some name⟩
      | some outer =>
        if memberBodies.contains parent then ⟨some (outer ++ "$" ++ name), some name⟩
        else ⟨none, some name⟩

/-- What a node does to the surroundings of its children, and the link that it may give. -/
def enter (st : Setting) (parent : String) (node : Node) (p : Progress) : Inquiry Progress :=
  let src := st.source
  match Role.under parent node.kind with
  | .typeDeclaration =>
    return p.enterClass (st.classContext p.here parent node) (src.memberFields node)
  | .anonymousClassBody => return p.enterClass .unknown (src.bodyFields none node)
  | .method => return p.enterScope "method" (src.parameters (node.child? "parameters"))
  | .lambda => return p.enterScope "lambda" (src.lambdaParameters node)
  | .block => return p.enterScope "block" []
  | .forLoop => return p.enterScope "for" []
  | .tryWithResources => return p.enterScope "try_with_resources" []
  | .forEach => return p.enterScope "for" (src.loopVariable node)
  | .catchClause => return p.enterScope "catch" (src.catchParameter node)
  | .resource => return p.declare (src.resourceVariable node)
  | .localDeclaration => return p.declare (src.declaredVariables node)
  | .typeReference => st.linkType p node
  | .methodCall => st.linkCall p node
  | .importDeclaration | .packageDeclaration | .other => return p

/-- Imports and the package declaration hold no references of their own. -/
def isSkipped (role : Role) : Bool :=
  role == .importDeclaration || role == .packageDeclaration

end Setting

/-- An item of a walk's work: to enter a node under a parent of this kind, or to close the scopes and
classes that a node opened. -/
inductive Work where
  | enter (parent : String) (node : Node)
  | exit (scopes classes : Nat)
deriving Repr, Inhabited

namespace Work

/-- What takes back the scopes and classes that entering a node of this role opens. -/
def exitOf? : Role → Option Work
  | .typeDeclaration | .anonymousClassBody => some (.exit 1 1)
  | .method | .lambda | .block | .forLoop | .tryWithResources | .forEach | .catchClause =>
    some (.exit 1 0)
  | _ => none

/-- What an item leaves to be done right after it: a node's children from left to right, and its
exit behind them. -/
def follow : Work → List Work
  | .enter parent node =>
    let role := Role.under parent node.kind
    if Setting.isSkipped role then []
    else node.children.map (.enter node.kind) ++ (exitOf? role).toList
  | .exit .. => []

/-- More than all that follows an item. -/
noncomputable def weight : Work → Nat
  | .enter _ node => sizeOf node
  | .exit .. => 1

noncomputable def total : List Work → Nat
  | [] => 0
  | w :: rest => w.weight + total rest

theorem total_append (a b : List Work) : total (a ++ b) = total a + total b := by
  induction a with
  | nil => simp [total]
  | cons w rest ih => simp [total, ih, Nat.add_assoc]

theorem total_children (kind : String) (children : List Node) :
    total (children.map (.enter kind)) < sizeOf children := by
  induction children with
  | nil => simp [total]
  | cons c rest ih =>
    simp only [total, List.map_cons, weight, List.cons.sizeOf_spec] at ih ⊢
    omega

theorem total_exit (role : Role) : total (exitOf? role).toList ≤ 1 := by
  cases role <;> simp [exitOf?, total, weight]

theorem total_follow (w : Work) : total w.follow < w.weight := by
  cases w with
  | exit => simp [follow, total, weight]
  | enter parent node =>
    obtain ⟨kind, field, named, missing, start, stop, children⟩ := node
    have hc := total_children kind children
    have he := total_exit (Role.under parent kind)
    simp only [follow, weight, Node.mk.sizeOf_spec]
    split
    · rw [total]
      omega
    · rw [total_append]
      omega

end Work

namespace Setting

/-- Does one item. -/
def perform (st : Setting) : Work → Progress → Inquiry Progress
  | .enter parent node, p =>
    if isSkipped (Role.under parent node.kind) then return p else st.enter parent node p
  | .exit scopes classes, p => return p.close scopes classes

/-- Does the first item, then what follows from it, then the other items. -/
def walk (st : Setting) : List Work → Progress → Inquiry Progress
  | [], p => return p
  | w :: rest, p => do
    let p ← st.perform w p
    st.walk (w.follow ++ rest) p
termination_by work => Work.total work
decreasing_by
  have hw := Work.total_follow w
  rw [Work.total_append]
  rw [Work.total]
  omega

/-- Links every import of one class. -/
def walkImports (st : Setting) : List Import → Progress → Inquiry Progress
  | [], p => return p
  | d :: rest, p => do
    let p ← st.linkImport p d
    st.walkImports rest p

/-- Walks the top-level nodes until a check before one of them says that the pass is cancelled. -/
def walkTop (st : Setting) (cancelled : Nat → Bool) (parent : String) :
    Nat → List Node → Progress → Inquiry (Progress × Bool)
  | _, [], p => return (p, false)
  | i, c :: rest, p =>
    if cancelled i then return (p, true)
    else do
      let p ← st.walk [.enter parent c] p
      st.walkTop cancelled parent (i + 1) rest p

/-- The pass over the imports, if they are to be linked. -/
def importPass (st : Setting) : Inquiry Progress :=
  if st.config.linkImports then st.walkImports st.imports.declarations {} else return {}

/-- The whole pass, and whether it was cancelled. `cancelled i` is the answer to the check before
the top-level node number `i`. -/
def resolve (st : Setting) (cancelled : Nat → Bool) : Inquiry (Progress × Bool) := do
  let p ← st.importPass
  st.walkTop cancelled st.source.root.kind 0 st.source.root.children p

end Setting
end SourceLinks
