import Mathlib.Data.List.Induction
import SourceLinks.Proofs.Entering
import SourceLinks.Proofs.Places
import SourceLinks.Proofs.Scopes

namespace SourceLinks

/-- Which variables are declared, and at which positions. -/
abbrev Declarations := List Nat → Declared → Prop

namespace Declarations
variable {D D' : Declarations} {vars vars' : List Declared} {x : String} {type : Option TypeName}

/-- The list has exactly what is declared, in the order of the positions. -/
def ListedAs (D : Declarations) (vars : List Declared) : Prop :=
  ∃ listed : List (List Nat × Declared), listed.map Prod.snd = vars ∧
    listed.Pairwise (fun a b => List.Lex (· < ·) a.1 b.1) ∧ ∀ key v, D key v ↔ (key, v) ∈ listed

/-- Of the declarations of a name the last gives it this type. -/
def LastGives (D : Declarations) (x : String) (type : Option TypeName) : Prop :=
  ∃ key, D key (x, type) ∧
    ∀ key' type', D key' (x, type') → key' = key ∨ List.Lex (· < ·) key' key

theorem ListedAs.congr (h : D.ListedAs vars) (hsame : ∀ key v, D' key v ↔ D key v) :
    D'.ListedAs vars := by
  obtain ⟨listed, hvars, hsorted, hmem⟩ := h
  exact ⟨listed, hvars, hsorted, fun key v => (hsame key v).trans (hmem key v)⟩

theorem listedAs_nil (h : ∀ key v, ¬ D key v) : D.ListedAs [] :=
  ⟨[], rfl, .nil, fun key v => iff_of_false (h key v) List.not_mem_nil⟩

theorem listedAs_singleton {w : Declared} (h : ∀ key v, D key v ↔ key = [] ∧ v = w) :
    D.ListedAs [w] := by
  refine ⟨[([], w)], rfl, List.pairwise_singleton _ _, fun key v => ?_⟩
  rw [h, List.mem_singleton]
  exact (Prod.mk.injEq ..).symm.to_iff

theorem listedAs_toList {declared : Option Declared}
    (h : ∀ key v, D key v ↔ key = [] ∧ declared = some v) : D.ListedAs declared.toList := by
  cases declared with
  | none => exact listedAs_nil fun key v hd => by cases ((h key v).mp hd).2
  | some w =>
    refine listedAs_singleton fun key v => (h key v).trans (and_congr_right fun _ => ?_)
    rw [Option.some.injEq, eq_comm]

/-- What items declare one after another, each at positions that start with its number. -/
theorem listedAs_flatMap {α : Type} {items : List α} (f : α → List Declared)
    (each : α → Declarations) (i : Nat) (h : ∀ a ∈ items, (each a).ListedAs (f a)) :
    ListedAs (fun key v => ∃ j a rest, items[j]? = some a ∧ key = (i + j) :: rest ∧ each a rest v)
      (items.flatMap f) := by
  induction items generalizing i with
  | nil => exact listedAs_nil fun key v => by simp
  | cons a items ih =>
    obtain ⟨ha, hitems⟩ := List.forall_mem_cons.mp h
    obtain ⟨first, hfirst, hsorted, hmem⟩ := ha
    obtain ⟨later, hlater, hsorted', hmem'⟩ := ih (i + 1) hitems
    refine ⟨first.map (fun d => (i :: d.1, d.2)) ++ later, ?_, ?_, fun key v => ?_⟩
    · rw [List.map_append, List.map_map, List.flatMap_cons, ← hfirst, ← hlater]
      rfl
    · rw [List.pairwise_append, List.pairwise_map]
      refine ⟨hsorted.imp fun hlex => .cons hlex, hsorted', ?_⟩
      rintro _ hd ⟨key, v⟩ hd'
      obtain ⟨d, _, rfl⟩ := List.mem_map.mp hd
      obtain ⟨j, _, rest, _, rfl, _⟩ := (hmem' key v).mpr hd'
      exact .rel (by omega)
    · rw [List.mem_append, List.mem_map, ← hmem']
      constructor
      · rintro ⟨j, b, rest, hb, rfl, hv⟩
        cases j with
        | zero =>
          obtain rfl : a = b := by simpa using hb
          exact .inl ⟨(rest, v), (hmem rest v).mp hv, rfl⟩
        | succ j => exact .inr ⟨j, b, rest, hb, by rw [Nat.add_right_comm, Nat.add_assoc], hv⟩
      · rintro (⟨⟨rest, w⟩, hw, he⟩ | ⟨j, b, rest, hb, rfl, hv⟩)
        · obtain ⟨rfl, rfl⟩ := Prod.mk.injEq .. ▸ he
          exact ⟨0, a, rest, rfl, rfl, (hmem rest w).mpr hw⟩
        · exact ⟨j + 1, b, rest, hb, by rw [Nat.add_right_comm, Nat.add_assoc], hv⟩

theorem listedAs_getD (part : Option Node) {f : Node → List Declared} {each : Node → Declarations}
    (h : ∀ n, (each n).ListedAs (f n)) :
    ListedAs (fun key v => ∃ n, part = some n ∧ each n key v) ((part.map f).getD []) := by
  cases part with
  | none => exact listedAs_nil fun key v ⟨n, hn, _⟩ => by cases hn
  | some n => exact (h n).congr fun key v => by simp

/-- What two parts declare, at positions that start with the number of the part. -/
theorem ListedAs.append (h : D.ListedAs vars) (h' : D'.ListedAs vars') :
    ListedAs
      (fun key v => (∃ rest, key = 0 :: rest ∧ D rest v) ∨ ∃ rest, key = 1 :: rest ∧ D' rest v)
      (vars ++ vars') := by
  have hboth : ∀ part ∈ [(D, vars), (D', vars')], part.1.ListedAs part.2 := by simp [h, h']
  have hparts := listedAs_flatMap Prod.snd Prod.fst 0 hboth
  simp only [List.flatMap_cons, List.flatMap_nil, List.append_nil] at hparts
  refine hparts.congr fun key v => ⟨?_, ?_⟩
  · rintro (⟨rest, rfl, hd⟩ | ⟨rest, rfl, hd⟩)
    · exact ⟨0, _, rest, rfl, rfl, hd⟩
    · exact ⟨1, _, rest, rfl, rfl, hd⟩
  · rintro ⟨j, a, rest, ha, rfl, hd⟩
    match j, ha with
    | 0, rfl => exact .inl ⟨rest, rfl, hd⟩
    | 1, rfl => exact .inr ⟨rest, rfl, hd⟩

private theorem not_lex_both {a b : List Nat} (h : List.Lex (· < ·) a b)
    (h' : b = a ∨ List.Lex (· < ·) b a) : False := by
  rcases h' with rfl | h'
  · exact List.lex_irrefl Nat.lt_irrefl _ h
  · exact List.lex_irrefl Nat.lt_irrefl _ (List.lex_trans (fun h h' => Nat.lt_trans h h') h h')

/-- The last value that a list has for a name is that of the last declaration. -/
theorem ListedAs.lastOf_eq_some (h : D.ListedAs vars) :
    Keyed.lastOf x vars = some type ↔ D.LastGives x type := by
  obtain ⟨listed, rfl, hsorted, hmem⟩ := h
  have hof : Keyed.lastOf x (listed.map Prod.snd) =
      (listed.filter fun d => d.2.1 == x).getLast?.map fun d => d.2.2 := by
    rw [Keyed.lastOf, List.filter_map, List.getLast?_map, Option.map_map]
    rfl
  have hdeclares : ∀ key t, D key (x, t) ↔ (key, (x, t)) ∈ listed.filter fun d => d.2.1 == x := by
    intro key t
    rw [hmem, List.mem_filter, beq_self_eq_true, and_iff_left rfl]
  have hsorted' := hsorted.filter fun d => d.2.1 == x
  have hnamed : ∀ d ∈ listed.filter fun d => d.2.1 == x, d.2.1 = x := fun d hd => by
    simpa using (List.mem_filter.mp hd).2
  rw [hof]
  generalize listed.filter (fun d => d.2.1 == x) = found at hdeclares hsorted' hnamed
  cases found using List.reverseRecOn with
  | nil => simp [LastGives, hdeclares]
  | append_singleton before last =>
    obtain ⟨key, y, t⟩ := last
    obtain rfl : y = x := hnamed (key, (y, t)) (by simp)
    have hbefore : ∀ key' t', (key', (y, t')) ∈ before → List.Lex (· < ·) key' key :=
      fun key' t' hd => (List.pairwise_append.mp hsorted').2.2 _ hd (key, (y, t)) (by simp)
    have hlast : D key (y, t) := (hdeclares key t).mpr (by simp)
    simp only [List.getLast?_append, List.getLast?_singleton, Option.some_or, Option.map_some,
      Option.some.injEq]
    constructor
    · rintro rfl
      refine ⟨key, hlast, fun key' t' hd => ?_⟩
      rcases List.mem_append.mp ((hdeclares key' t').mp hd) with hd | hd
      · exact .inr (hbefore key' t' hd)
      · simp only [List.mem_singleton, Prod.mk.injEq] at hd
        exact .inl hd.1
    · rintro ⟨key', hd, hmax⟩
      rcases List.mem_append.mp ((hdeclares key' type).mp hd) with hd | hd
      · exact (not_lex_both (hbefore key' type hd) (hmax key t hlast)).elim
      · simp only [List.mem_singleton, Prod.mk.injEq] at hd
        exact hd.2.2.symm

theorem ListedAs.lastOf_eq_none (h : D.ListedAs vars) :
    Keyed.lastOf x vars = none ↔ ∀ key type, ¬ D key (x, type) := by
  obtain ⟨listed, rfl, _, hmem⟩ := h
  simp only [Keyed.lastOf, Option.map_eq_none_iff, List.getLast?_eq_none_iff,
    List.filter_eq_nil_iff, List.mem_map, beq_iff_eq, hmem]
  constructor
  · intro hnone key type hd
    exact hnone (x, type) ⟨(key, (x, type)), hd, rfl⟩ rfl
  · rintro hnone _ ⟨⟨key, y, type⟩, hd, rfl⟩ rfl
    exact hnone key type hd

end Declarations

/-- What the named children of a node declare, each at positions that start with its number. -/
inductive Among (each : Node → Declarations) (n : Node) : Declarations where
  | child {i : Nat} {c : Node} {rest : List Nat} {v : Declared} (at_child : n.children[i]? = some c)
      (named : c.named = true) (declares : each c rest v) : Among each n (i :: rest) v

theorem listedAs_among {each : Node → Declarations} {f : Node → List Declared} {n : Node}
    (h : ∀ c ∈ n.children, c.named = true → (each c).ListedAs (f c)) :
    (Among each n).ListedAs (n.namedChildren.flatMap f) := by
  have hchildren : n.namedChildren.flatMap f =
      n.children.flatMap fun c => if c.named then f c else [] := by
    rw [Node.namedChildren]
    induction n.children with
    | nil => rfl
    | cons c rest ih => cases hc : c.named <;> simp [hc, ih]
  have heach : ∀ c ∈ n.children,
      Declarations.ListedAs (fun key v => c.named = true ∧ each c key v)
        (if c.named then f c else []) := by
    intro c hc
    cases hnamed : c.named with
    | true => exact (h c hc hnamed).congr fun key v => and_iff_right rfl
    | false => exact Declarations.listedAs_nil fun key v hd => Bool.false_ne_true hd.1
  rw [hchildren]
  refine (Declarations.listedAs_flatMap _ _ 0 heach).congr fun key v => ?_
  constructor
  · rintro ⟨hat, hnamed, hdeclares⟩
    exact ⟨_, _, _, hat, by rw [Nat.zero_add], hnamed, hdeclares⟩
  · rintro ⟨i, c, rest, hat, rfl, hnamed, hdeclares⟩
    rw [Nat.zero_add]
    exact .child hat hnamed hdeclares

/-- The same where the children are chosen and read one by one. -/
theorem listedAs_among_filter {each : Node → Declarations} {chosen : Node → Bool}
    {read : Node → Option Declared} {n : Node}
    (h : ∀ c, (each c).ListedAs (if chosen c then (read c).toList else [])) :
    (Among each n).ListedAs ((n.namedChildren.filter chosen).filterMap read) := by
  have hflat : ∀ nodes : List Node, (nodes.filter chosen).filterMap read =
      nodes.flatMap fun c => if chosen c then (read c).toList else [] := by
    intro nodes
    induction nodes with
    | nil => rfl
    | cons c rest ih =>
      cases hc : chosen c with
      | false => simp [hc, ih]
      | true => cases hr : read c <;> simp [hc, hr, ih]
  rw [hflat]
  exact listedAs_among fun c _ _ => h c

namespace Source
variable {s : Source} {type own : Option TypeName} {n c : Node}

/-- A node that names a variable. Dimensions behind the name make it an array, which has no class. -/
inductive Variable (s : Source) (type : Option TypeName) (n : Node) : Declarations where
  | plain {name : Node} (name_at : n.child? "name" = some name)
      (undimensioned : n.child? "dimensions" = none) : Variable s type n [] (s.text name, type)
  | array {name dimensions : Node} (name_at : n.child? "name" = some name)
      (dimensions_at : n.child? "dimensions" = some dimensions) :
      Variable s type n [] (s.text name, none)

/-- One of the variables that a declaration of this type declares. -/
inductive Declarator (s : Source) (type : Option TypeName) (d : Node) : Declarations where
  | mk {key : List Nat} {v : Declared} (kind : d.kind = "variable_declarator")
      (names : s.Variable type d key v) : Declarator s type d key v

/-- One of the parameters in a list. One that takes any number of values is an array, and one that
is only named has no type. -/
inductive Parameter (s : Source) (p : Node) : Declarations where
  | formal {key : List Nat} {v : Declared} (kind : p.kind = "formal_parameter")
      (names : s.Variable ((p.child? "type").bind s.typeName?) p key v) : Parameter s p key v
  | spread {key : List Nat} {v : Declared} (kind : p.kind = "spread_parameter")
      (names : Among (s.Declarator none) p key v) : Parameter s p key v
  | bare (kind : p.kind = "identifier") : Parameter s p [] (s.text p, none)

/-- What stands before the arrow of a lambda. -/
inductive LambdaParameter (s : Source) (list : Node) : Declarations where
  | single (kind : list.kind = "identifier") : LambdaParameter s list [] (s.text list, none)
  | inferred {i : Nat} {c : Node} (kind : list.kind = "inferred_parameters")
      (at_child : list.children[i]? = some c) (named : c.named = true)
      (identifier : c.kind = "identifier") : LambdaParameter s list [i] (s.text c, none)
  | formal {key : List Nat} {v : Declared}
      (kind : list.kind ≠ "identifier" ∧ list.kind ≠ "inferred_parameters")
      (declares : Among s.Parameter list key v) : LambdaParameter s list key v

/-- What a catch clause declares. A parameter that catches several types has no single one. -/
inductive CatchParameter (s : Source) (n : Node) : Declarations where
  | single {p name types type : Node}
      (parameter_at : n.namedChild? ["catch_formal_parameter"] = some p)
      (name_at : p.child? "name" = some name) (types_at : p.namedChild? ["catch_type"] = some types)
      (only : types.namedChildren = [type]) : CatchParameter s n [] (s.text name, s.typeName? type)
  | several {p name : Node} (parameter_at : n.namedChild? ["catch_formal_parameter"] = some p)
      (name_at : p.child? "name" = some name)
      (not_one : ∀ types type, p.namedChild? ["catch_type"] = some types →
        types.namedChildren ≠ [type]) : CatchParameter s n [] (s.text name, none)

/-- What a member of a type's body declares in the type, where `own` is the type itself. The members
of an enum stand in a part of their own behind the constants. -/
inductive Member (s : Source) (own : Option TypeName) : Node → Declarations where
  | field {c : Node} {key : List Nat} {v : Declared}
      (kind : c.kind = "field_declaration" ∨ c.kind = "constant_declaration")
      (declares : Among (s.Declarator ((c.child? "type").bind s.typeName?)) c key v) :
      Member s own c key v
  | constant {c name : Node} (kind : c.kind = "enum_constant")
      (name_at : c.child? "name" = some name) : Member s own c [] (s.text name, own)
  | part {c d : Node} {i : Nat} {key : List Nat} {v : Declared}
      (kind : c.kind = "enum_body_declarations") (at_child : c.children[i]? = some d)
      (named : d.named = true) (declares : Member s own d key v) : Member s own c (i :: key) v

/-- What a node declares: a type its fields, a record's components before them; a method or a lambda
its parameters; a loop, a catch clause or a resource its variable; a local declaration its
variables. -/
inductive Declares (s : Source) (e : Entry) : Declarations where
  | component {list : Node} {key : List Nat} {v : Declared} (role : e.role = .typeDeclaration)
      (kind : e.node.kind = "record_declaration") (list_at : e.node.child? "parameters" = some list)
      (declares : Among s.Parameter list key v) : Declares s e (0 :: key) v
  | field {body : Node} {key : List Nat} {v : Declared} (role : e.role = .typeDeclaration)
      (body_at : e.node.child? "body" = some body)
      (declares : Among (s.Member ((e.node.child? "name").map fun name => ⟨[s.text name]⟩)) body
        key v) : Declares s e (1 :: key) v
  | anonymous {key : List Nat} {v : Declared} (role : e.role = .anonymousClassBody)
      (declares : Among (s.Member none) e.node key v) : Declares s e key v
  | parameter {list : Node} {key : List Nat} {v : Declared} (role : e.role = .method)
      (list_at : e.node.child? "parameters" = some list)
      (declares : Among s.Parameter list key v) : Declares s e key v
  | lambda {list : Node} {key : List Nat} {v : Declared} (role : e.role = .lambda)
      (list_at : e.node.child? "parameters" = some list)
      (declares : s.LambdaParameter list key v) : Declares s e key v
  | loop {key : List Nat} {v : Declared} (role : e.role = .forEach)
      (names : s.Variable ((e.node.child? "type").bind s.typeName?) e.node key v) :
      Declares s e key v
  | caught {key : List Nat} {v : Declared} (role : e.role = .catchClause)
      (declares : s.CatchParameter e.node key v) : Declares s e key v
  | resource {name type : Node} (role : e.role = .resource)
      (name_at : e.node.child? "name" = some name) (type_at : e.node.child? "type" = some type) :
      Declares s e [] (s.text name, s.typeName? type)
  | locals {key : List Nat} {v : Declared} (role : e.role = .localDeclaration)
      (declares : Among (s.Declarator ((e.node.child? "type").bind s.typeName?)) e.node key v) :
      Declares s e key v

/-! Each list of declarations that is read off a node is that of the relation. -/

theorem listedAs_variable (s : Source) (type : Option TypeName) (n : Node) :
    (s.Variable type n).ListedAs
      ((n.child? "name").map fun name => (s.text name, unlessArray n type)).toList := by
  refine Declarations.listedAs_toList fun key v => ⟨fun h => ?_, ?_⟩
  · cases h with
    | plain hname hplain => simp [hname, unlessArray, hplain]
    | array hname harray => simp [hname, unlessArray, harray]
  · rintro ⟨rfl, h⟩
    obtain ⟨name, hname, rfl⟩ := Option.map_eq_some_iff.mp h
    unfold unlessArray
    cases hdims : n.child? "dimensions" with
    | none => exact .plain hname hdims
    | some dims => exact .array hname hdims

theorem listedAs_identifier (s : Source) (c : Node) :
    Declarations.ListedAs (fun key v => c.kind = "identifier" ∧ key = [] ∧ v = (s.text c, none))
      (if c.kind == "identifier" then (some (s.text c, none)).toList else []) := by
  split
  · rename_i hkind
    exact Declarations.listedAs_singleton fun key v => and_iff_right (beq_iff_eq.mp hkind)
  · rename_i hkind
    exact Declarations.listedAs_nil fun key v ⟨hc, _⟩ => hkind (beq_iff_eq.mpr hc)

theorem listedAs_declarators (s : Source) (type : Option TypeName) (n : Node) :
    (Among (s.Declarator type) n).ListedAs
      ((n.namedChildren.filter fun d => d.kind == "variable_declarator").filterMap fun d =>
        (d.child? "name").map fun name => (s.text name, unlessArray d type)) := by
  refine listedAs_among_filter fun d => ?_
  split
  · rename_i hkind
    refine (listedAs_variable s type d).congr fun key v => ?_
    exact ⟨fun ⟨_, hnames⟩ => hnames, .mk (beq_iff_eq.mp hkind)⟩
  · rename_i hkind
    exact Declarations.listedAs_nil fun key v ⟨hd, _⟩ => hkind (beq_iff_eq.mpr hd)

theorem listedAs_declaredVariables (s : Source) (n : Node) :
    (Among (s.Declarator ((n.child? "type").bind s.typeName?)) n).ListedAs
      (s.declaredVariables n) :=
  listedAs_declarators ..

theorem listedAs_parameter (s : Source) (p : Node) : (s.Parameter p).ListedAs (s.parameter p) := by
  unfold parameter
  split
  · rename_i hkind
    rw [← Option.toList_map]
    refine (listedAs_variable ..).congr fun key v => ⟨fun h => ?_, .formal hkind⟩
    cases h with
    | formal _ hnames => exact hnames
    | spread hother => simp [hkind] at hother
    | bare hother => simp [hkind] at hother
  · rename_i hkind
    have hdeclarators := listedAs_declarators s none p
    simp only [unlessArray, ite_self] at hdeclarators
    refine hdeclarators.congr fun key v => ⟨fun h => ?_, .spread hkind⟩
    cases h with
    | formal hother => simp [hkind] at hother
    | spread _ hnames => exact hnames
    | bare hother => simp [hkind] at hother
  · rename_i hkind
    refine Declarations.listedAs_singleton fun key v => ⟨fun h => ?_, ?_⟩
    · cases h with
      | formal hother => simp [hkind] at hother
      | spread hother => simp [hkind] at hother
      | bare => exact ⟨rfl, rfl⟩
    · rintro ⟨rfl, rfl⟩
      exact .bare hkind
  · rename_i hformal hspread hbare
    refine Declarations.listedAs_nil fun key v h => ?_
    cases h with
    | formal hkind => exact hformal hkind
    | spread hkind => exact hspread hkind
    | bare hkind => exact hbare hkind

theorem listedAs_parameters (s : Source) (list : Option Node) :
    Declarations.ListedAs (fun key v => ∃ n, list = some n ∧ Among s.Parameter n key v)
      (s.parameters list) :=
  Declarations.listedAs_getD list fun _ => listedAs_among fun p _ _ => listedAs_parameter s p

theorem listedAs_lambdaParameter (s : Source) (list : Node) :
    (s.LambdaParameter list).ListedAs
      (match list.kind with
      | "identifier" => [(s.text list, none)]
      | "inferred_parameters" =>
        (list.namedChildren.filter fun c => c.kind == "identifier").map fun c => (s.text c, none)
      | _ => s.parameters (some list)) := by
  split
  · rename_i hkind
    refine Declarations.listedAs_singleton fun key v => ⟨fun h => ?_, ?_⟩
    · cases h with
      | single => exact ⟨rfl, rfl⟩
      | inferred hother => simp [hkind] at hother
      | formal hother => exact absurd hkind hother.1
    · rintro ⟨rfl, rfl⟩
      exact .single hkind
  · rename_i hkind
    rw [← List.filterMap_eq_map]
    refine (listedAs_among_filter (listedAs_identifier s)).congr fun key v => ⟨fun h => ?_, ?_⟩
    · cases h with
      | single hother => simp [hkind] at hother
      | inferred _ hat hnamed hidentifier => exact .child hat hnamed ⟨hidentifier, rfl, rfl⟩
      | formal hother => exact absurd hkind hother.2
    · rintro ⟨hat, hnamed, hidentifier, rfl, rfl⟩
      exact .inferred hkind hat hnamed hidentifier
  · rename_i hsingle hinferred
    refine (listedAs_parameters s (some list)).congr fun key v => ⟨fun h => ?_, ?_⟩
    · cases h with
      | single hkind => exact absurd hkind hsingle
      | inferred hkind => exact absurd hkind hinferred
      | formal _ hdeclares => exact ⟨list, rfl, hdeclares⟩
    · rintro ⟨_, ⟨⟩, hdeclares⟩
      exact .formal ⟨hsingle, hinferred⟩ hdeclares

theorem listedAs_lambdaParameters (s : Source) (n : Node) :
    Declarations.ListedAs
      (fun key v => ∃ list, n.child? "parameters" = some list ∧ s.LambdaParameter list key v)
      (s.lambdaParameters n) := by
  have hlist := Declarations.listedAs_getD (n.child? "parameters") (listedAs_lambdaParameter s)
  unfold lambdaParameters
  cases hpart : n.child? "parameters" with
  | none =>
    rw [hpart] at hlist
    exact hlist
  | some list =>
    rw [hpart] at hlist
    exact hlist

theorem single_catchType {p type : Node} :
    ((p.namedChild? ["catch_type"]).map Node.namedChildren).getD [] = [type] ↔
      ∃ types, p.namedChild? ["catch_type"] = some types ∧ types.namedChildren = [type] := by
  cases p.namedChild? ["catch_type"] <;> simp

theorem listedAs_catchParameter (s : Source) (n : Node) :
    (s.CatchParameter n).ListedAs (s.catchParameter n) := by
  refine Declarations.listedAs_toList fun key v => ⟨fun h => ?_, ?_⟩
  · cases h with
    | single hp hname htypes honly => simp [hp, hname, htypes, honly]
    | several hp hname hnot =>
      simp only [hp, hname, Option.bind_some, Option.map_some, true_and]
      split
      · rename_i type hone
        obtain ⟨types, htypes, honly⟩ := single_catchType.mp hone
        exact absurd honly (hnot types type htypes)
      · rfl
  · rintro ⟨rfl, h⟩
    obtain ⟨p, hp, h⟩ := Option.bind_eq_some_iff.mp h
    obtain ⟨name, hname, rfl⟩ := Option.map_eq_some_iff.mp h
    dsimp only
    split
    · rename_i type hone
      obtain ⟨types, htypes, honly⟩ := single_catchType.mp hone
      exact .single hp hname htypes honly
    · rename_i hmany
      exact .several hp hname fun types type htypes honly =>
        hmany type (single_catchType.mpr ⟨types, htypes, honly⟩)

theorem listedAs_memberField (hpart : c.kind ≠ "enum_body_declarations") :
    (s.Member own c).ListedAs (s.memberField own c) := by
  unfold memberField
  split
  · rename_i hkind
    refine (listedAs_declaredVariables s c).congr fun key v => ⟨fun h => ?_, .field (.inl hkind)⟩
    cases h with
    | field _ hdeclares => exact hdeclares
    | constant hother => simp [hkind] at hother
    | part hother => exact absurd hother hpart
  · rename_i hkind
    refine (listedAs_declaredVariables s c).congr fun key v => ⟨fun h => ?_, .field (.inr hkind)⟩
    cases h with
    | field _ hdeclares => exact hdeclares
    | constant hother => simp [hkind] at hother
    | part hother => exact absurd hother hpart
  · rename_i hkind
    rw [← Option.toList_map]
    refine Declarations.listedAs_toList fun key v => ⟨fun h => ?_, ?_⟩
    · cases h with
      | field hother => simp [hkind] at hother
      | constant _ hname => simp [hname]
      | part hother => exact absurd hother hpart
    · rintro ⟨rfl, h⟩
      obtain ⟨name, hname, rfl⟩ := Option.map_eq_some_iff.mp h
      exact .constant hkind hname
  · rename_i hfield hconstant henum
    refine Declarations.listedAs_nil fun key v h => ?_
    cases h with
    | field hkind => exact hkind.elim hfield hconstant
    | constant hkind => exact henum hkind
    | part hkind => exact hpart hkind

theorem bodyFields_eq (s : Source) (own : Option TypeName) (n : Node) :
    s.bodyFields own n = n.namedChildren.flatMap fun c =>
      if c.kind = "enum_body_declarations" then s.bodyFields own c else s.memberField own c := by
  obtain ⟨kind, field, named, missing, start, stop, children⟩ := n
  rw [bodyFields, Node.namedChildren]
  induction children with
  | nil => rfl
  | cons c rest ih => cases hc : c.named <;> simp [fieldsAmong, hc, ih]

theorem listedAs_members (s : Source) (own : Option TypeName) (n : Node) :
    (Among (s.Member own) n).ListedAs (s.bodyFields own n) := by
  induction n using Node.induct with
  | step n ih =>
    rw [bodyFields_eq]
    refine listedAs_among fun c hc _ => ?_
    split
    · rename_i hkind
      refine (ih c hc).congr fun key v => ⟨fun h => ?_, ?_⟩
      · cases h with
        | field hother => simp [hkind] at hother
        | constant hother => simp [hkind] at hother
        | part _ hat hnamed hdeclares => exact .child hat hnamed hdeclares
      · rintro ⟨hat, hnamed, hdeclares⟩
        exact .part hkind hat hnamed hdeclares
    · rename_i hpart
      exact listedAs_memberField hpart

theorem listedAs_memberFields (s : Source) {e : Entry} (hrole : e.role = .typeDeclaration) :
    (s.Declares e).ListedAs (s.memberFields e.node) := by
  have hcomponents : Declarations.ListedAs
      (fun key v => e.node.kind = "record_declaration" ∧
        ∃ list, e.node.child? "parameters" = some list ∧ Among s.Parameter list key v)
      (if e.node.kind = "record_declaration" then s.parameters (e.node.child? "parameters")
        else []) := by
    split
    · rename_i hkind
      exact (listedAs_parameters s _).congr fun key v => and_iff_right hkind
    · rename_i hkind
      exact Declarations.listedAs_nil fun key v ⟨hrecord, _⟩ => hkind hrecord
  have hfields := Declarations.listedAs_getD (e.node.child? "body") fun body =>
    listedAs_members s ((e.node.child? "name").map fun name => ⟨[s.text name]⟩) body
  refine (hcomponents.append hfields).congr fun key v => ⟨fun h => ?_, ?_⟩
  · cases h with
    | component _ hkind hlist hdeclares => exact .inl ⟨_, rfl, hkind, _, hlist, hdeclares⟩
    | field _ hbody hdeclares => exact .inr ⟨_, rfl, _, hbody, hdeclares⟩
    | _ => simp_all
  · rintro (⟨rest, rfl, hkind, list, hlist, hdeclares⟩ | ⟨rest, rfl, body, hbody, hdeclares⟩)
    · exact .component hrole hkind hlist hdeclares
    · exact .field hrole hbody hdeclares

theorem listedAs_resourceVariable (s : Source) {e : Entry} (hrole : e.role = .resource) :
    (s.Declares e).ListedAs (s.resourceVariable e.node) := by
  have hread : s.resourceVariable e.node = ((e.node.child? "name").bind fun name =>
      (e.node.child? "type").map fun type => (s.text name, s.typeName? type)).toList := by
    unfold resourceVariable
    cases e.node.child? "name" <;> cases e.node.child? "type" <;> rfl
  rw [hread]
  refine Declarations.listedAs_toList fun key v => ⟨fun h => ?_, ?_⟩
  · cases h with
    | resource _ hname htype => simp [hname, htype]
    | _ => simp_all
  · rintro ⟨rfl, h⟩
    obtain ⟨name, hname, h⟩ := Option.bind_eq_some_iff.mp h
    obtain ⟨type, htype, rfl⟩ := Option.map_eq_some_iff.mp h
    exact .resource hrole hname htype

/-- What a node declares is what is read off it. -/
theorem listedAs_declaredBy (s : Source) (e : Entry) :
    (s.Declares e).ListedAs (s.declaredBy e) := by
  unfold declaredBy
  cases hrole : e.role with
  | typeDeclaration => exact listedAs_memberFields s hrole
  | anonymousClassBody =>
    refine (listedAs_members s none e.node).congr fun key v => ⟨fun h => ?_, .anonymous hrole⟩
    cases h with
    | anonymous _ hdeclares => exact hdeclares
    | _ => simp_all
  | method =>
    refine (listedAs_parameters s _).congr fun key v => ⟨fun h => ?_, ?_⟩
    · cases h with
      | parameter _ hlist hdeclares => exact ⟨_, hlist, hdeclares⟩
      | _ => simp_all
    · rintro ⟨list, hlist, hdeclares⟩
      exact .parameter hrole hlist hdeclares
  | lambda =>
    refine (listedAs_lambdaParameters s e.node).congr fun key v => ⟨fun h => ?_, ?_⟩
    · cases h with
      | lambda _ hlist hdeclares => exact ⟨_, hlist, hdeclares⟩
      | _ => simp_all
    · rintro ⟨list, hlist, hdeclares⟩
      exact .lambda hrole hlist hdeclares
  | forEach =>
    unfold loopVariable
    rw [← Option.toList_map]
    refine (listedAs_variable ..).congr fun key v => ⟨fun h => ?_, .loop hrole⟩
    cases h with
    | loop _ hnames => exact hnames
    | _ => simp_all
  | catchClause =>
    refine (listedAs_catchParameter s e.node).congr fun key v => ⟨fun h => ?_, .caught hrole⟩
    cases h with
    | caught _ hdeclares => exact hdeclares
    | _ => simp_all
  | resource => exact listedAs_resourceVariable s hrole
  | localDeclaration =>
    refine (listedAs_declaredVariables s e.node).congr fun key v => ⟨fun h => ?_, .locals hrole⟩
    cases h with
    | locals _ hdeclares => exact hdeclares
    | _ => simp_all
  | _ =>
    refine Declarations.listedAs_nil fun key v h => ?_
    cases h <;> simp_all

end Source
end SourceLinks
