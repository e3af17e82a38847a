import Mathlib.Data.List.Forall2
import SourceLinks.Proofs.SimpleNames
import SourceLinks.Proofs.UnnamedClasses

namespace SourceLinks
variable {s : Source} {π σ τ above : Place} {e : Entry} {i : Nat}

namespace Source

/-- The root is a program, and no node that a pass enters is one. -/
structure IsProgram (s : Source) : Prop where
  root : s.root.kind = "program"
  below : ∀ π ∈ s.places, (s.entryAt? π).map (·.node.kind) ≠ some "program"

/-- The places of the classes at and around a place, the outermost first. -/
def classPlaces (s : Source) (π : Place) : List Place :=
  π.inits.filter s.opensClassAt

/-- The name that the node at a place declares, or nothing. -/
def nameAt (s : Source) (τ : Place) : String :=
  ((s.entryAt? τ).bind fun e => (e.node.child? "name").map s.text).getD ""

/-- A type declaration with a name stands at the place. -/
def NamesType (s : Source) (τ : Place) : Prop :=
  (∃ e, s.entryAt? τ = some e ∧ e.role = .typeDeclaration) ∧ s.nameAt τ ≠ ""

/-- The node at the place stands directly in a body whose type declarations are member classes. -/
def InMemberBody (s : Source) (τ : Place) : Prop :=
  ∃ e, s.entryAt? τ = some e ∧ e.parent ∈ Setting.memberBodies

/-- The class at the place is anonymous, or declared neither at the top of the document nor among
the members of another class. -/
def Conceals (s : Source) (σ : Place) : Prop :=
  ∃ e, s.entryAt? σ = some e ∧
    (e.role = .anonymousClassBody ∨
      e.role = .typeDeclaration ∧ 1 < σ.length ∧ e.parent ∉ Setting.memberBodies)

theorem namesType_iff (he : s.entryAt? τ = some e) :
    s.NamesType τ ↔ e.role = .typeDeclaration ∧ s.nameAt τ ≠ "" := by
  simp [NamesType, he]

theorem inMemberBody_iff (he : s.entryAt? τ = some e) :
    s.InMemberBody τ ↔ e.parent ∈ Setting.memberBodies := by
  simp [InMemberBody, he]

theorem mem_classPlaces : σ ∈ s.classPlaces π ↔ σ <+: π ∧ s.opensClassAt σ = true := by
  simp [classPlaces, List.mem_inits]

theorem classPlaces_top (s : Source) : s.classPlaces [] = [] := rfl

theorem classPlaces_opened (h : s.opensClassAt (above ++ [i]) = true) :
    s.classPlaces (above ++ [i]) = s.classPlaces above ++ [above ++ [i]] := by
  simp [classPlaces, List.inits_append, h]

theorem classPlaces_around (h : s.opensClassAt (above ++ [i]) = false) :
    s.classPlaces (above ++ [i]) = s.classPlaces above := by
  simp [classPlaces, List.inits_append, h]

/-- The classes at a place are those at the innermost of them. -/
theorem classPlaces_innermost {outer : List Place} (h : s.classPlaces π = outer ++ [σ]) :
    s.classPlaces σ = outer ++ [σ] := by
  induction π using List.reverseRecOn with
  | nil => simp [classPlaces_top] at h
  | append_singleton above i ih =>
    cases hopens : s.opensClassAt (above ++ [i]) with
    | true =>
      rw [classPlaces_opened hopens] at h
      obtain ⟨rfl, hσ⟩ := List.append_inj' h rfl
      obtain rfl : above ++ [i] = σ := by simpa using hσ
      exact classPlaces_opened hopens
    | false =>
      rw [classPlaces_around hopens] at h
      exact ih h

/-- The parent of a node stands at the place above it. -/
theorem entryAt_above (hne : above ≠ []) (he : s.entryAt? (above ++ [i]) = some e) :
    ∃ f, s.entryAt? above = some f ∧ e.parent = f.node.kind := by
  cases above with
  | nil => exact absurd rfl hne
  | cons j π =>
    simp only [List.cons_append, entryAt?, Node.entryAt_snoc, Option.bind_eq_some_iff,
      Option.map_eq_some_iff] at he ⊢
    obtain ⟨c, hc, f, hf, n, _, rfl⟩ := he
    exact ⟨f, ⟨c, hc, hf⟩, rfl⟩

theorem above_mem_places (hne : above ≠ []) (h : above ++ [i] ∈ s.places) : above ∈ s.places := by
  obtain ⟨⟨e, he⟩, hup⟩ := mem_places.mp h
  obtain ⟨f, hf, _⟩ := entryAt_above hne he
  refine mem_places.mpr ⟨⟨f, hf⟩, ?_⟩
  intro σ d hσ hd
  exact hup σ d (hσ.trans (List.prefix_append above [i])) hd

/-- Only the nodes at the top have a program for their parent. -/
theorem IsProgram.parent_iff (h : s.IsProgram) (hmem : above ++ [i] ∈ s.places)
    (he : s.entryAt? (above ++ [i]) = some e) : e.parent = "program" ↔ above = [] := by
  constructor
  · intro hparent
    by_contra hne
    obtain ⟨f, hf, hkind⟩ := entryAt_above hne he
    apply h.below above (above_mem_places hne hmem)
    rw [hf, Option.map_some, ← hkind, hparent]
  · rintro rfl
    rw [entryAt_top, Option.map_eq_some_iff] at he
    obtain ⟨n, _, rfl⟩ := he
    exact h.root

end Source

namespace Setting
variable {st : Setting} {ctx : ClassContext} {b o x : String}

/-- The binary name of a class at the top of the document. The class that the document is of has its
own, also where that is a member class. -/
def topName (st : Setting) (x : String) : String :=
  let doc := st.source.document
  if x = doc.ownerSimpleName ∨ '$' :: x.toList <:+ doc.ownerSimpleName.toList then doc.owner
  else doc.package ++ x

/-- The binary name of the class at a place. All classes at and around it are type declarations with
a name, the outermost stands at the top of the document and each other one in a member body; then it
is the name of the outermost, followed by those of the others behind a dollar each. -/
def BinaryName (st : Setting) (τ : Place) (b : String) : Prop :=
  ∃ top members, st.source.classPlaces τ = top :: members ∧
    (∀ σ ∈ top :: members, st.source.NamesType σ) ∧ top.length = 1 ∧
    (∀ σ ∈ members, st.source.InMemberBody σ) ∧
    b = st.topName (st.source.nameAt top) ++
      String.join (members.map fun σ => "$" ++ st.source.nameAt σ)

/-- The context of the class at a place: it has the name that the class is declared with and the
binary name that the source shows, if there are any. -/
structure Describes (st : Setting) (τ : Place) (ctx : ClassContext) : Prop where
  simple : ∀ x, ctx.simple = some x ↔ st.source.NamesType τ ∧ st.source.nameAt τ = x
  internal : ∀ b, ctx.internal = some b ↔ st.BinaryName τ b
  concealed : ∀ σ, st.source.Conceals σ → σ <+: τ → ctx.internal = none

theorem topName_ne_empty (st : Setting) (hx : x ≠ "") : st.topName x ≠ "" := by
  have hbehind : ∀ y, y ≠ "" → st.source.document.package ++ y ≠ "" := by
    intro y hy h
    exact hy (String.append_eq_empty_iff.mp h).2
  unfold topName
  simp only
  split
  · rename_i howner
    rw [← Document.package_append_simple]
    apply hbehind
    rcases howner with rfl | hmember
    · exact hx
    · intro hempty
      rw [hempty] at hmember
      simpa using hmember.length_le
  · exact hbehind x hx

theorem BinaryName.ne_empty (h : st.BinaryName τ b) : b ≠ "" := by
  obtain ⟨top, members, _, hnames, _, _, rfl⟩ := h
  intro hempty
  exact st.topName_ne_empty (hnames top (by simp)).2 (String.append_eq_empty_iff.mp hempty).1

theorem binaryName_top (hopens : st.source.opensClassAt [i] = true)
    (hnames : st.source.NamesType [i]) :
    st.BinaryName [i] (st.topName (st.source.nameAt [i])) := by
  have hplaces : st.source.classPlaces ([] ++ [i]) = [] ++ [[] ++ [i]] :=
    Source.classPlaces_opened hopens
  exact ⟨[i], [], hplaces, by simpa using hnames, rfl, by simp, by simp⟩

/-- A member class has its binary name from the class around it. -/
theorem BinaryName.member {outer : List Place}
    (hopens : st.source.opensClassAt (above ++ [i]) = true)
    (hlast : st.source.classPlaces above = outer ++ [σ]) (h : st.BinaryName σ o)
    (hnames : st.source.NamesType (above ++ [i])) (hbody : st.source.InMemberBody (above ++ [i])) :
    st.BinaryName (above ++ [i]) (o ++ "$" ++ st.source.nameAt (above ++ [i])) := by
  obtain ⟨top, members, hσ, hall, htop, hbodies, rfl⟩ := h
  rw [Source.classPlaces_innermost hlast] at hσ
  refine ⟨top, members ++ [above ++ [i]], ?_, ?_, htop, ?_, by simp [String.append_assoc]⟩
  · rw [Source.classPlaces_opened hopens, hlast, hσ, List.cons_append]
  · rw [← List.cons_append, List.forall_mem_append]
    exact ⟨hall, by simpa using hnames⟩
  · rw [List.forall_mem_append]
    exact ⟨hbodies, by simpa using hbody⟩

/-- There is no other way to a binary name. -/
theorem BinaryName.cases (hopens : st.source.opensClassAt (above ++ [i]) = true)
    (h : st.BinaryName (above ++ [i]) b) :
    st.source.NamesType (above ++ [i]) ∧
      (above = [] ∧ b = st.topName (st.source.nameAt (above ++ [i])) ∨
        st.source.InMemberBody (above ++ [i]) ∧
          ∃ outer σ o, st.source.classPlaces above = outer ++ [σ] ∧ st.BinaryName σ o ∧
            b = o ++ "$" ++ st.source.nameAt (above ++ [i])) := by
  obtain ⟨top, members, hsplit, hall, htop, hbodies, rfl⟩ := h
  rw [Source.classPlaces_opened hopens] at hsplit
  cases members using List.reverseRecOn with
  | nil =>
    obtain ⟨_, rfl⟩ : st.source.classPlaces above = [] ∧ above ++ [i] = top := by
      simpa [List.append_eq_singleton_iff] using hsplit
    exact ⟨hall _ (by simp), .inl ⟨by simpa using htop, by simp⟩⟩
  | append_singleton outer last =>
    rw [← List.cons_append] at hsplit
    obtain ⟨habove, heq⟩ := List.append_inj' hsplit rfl
    obtain rfl : above ++ [i] = last := by simpa using heq
    rw [← List.cons_append, List.forall_mem_append] at hall
    rw [List.forall_mem_append] at hbodies
    refine ⟨hall.2 _ (by simp), .inr ⟨hbodies.2 _ (by simp), ?_⟩⟩
    -- The class around it is the last of the others.
    obtain ⟨before, σ, hlast⟩ := (List.eq_nil_or_concat' (top :: outer)).resolve_left (by simp)
    have hσ : st.source.classPlaces σ = top :: outer := by
      rw [hlast] at habove ⊢
      exact Source.classPlaces_innermost habove
    exact ⟨before, σ, _, habove.trans hlast, ⟨top, outer, hσ, hall.1, htop, hbodies.1, rfl⟩,
      by simp [String.append_assoc]⟩

/-- Neither an anonymous nor a local class is among those that a binary name goes through. -/
theorem BinaryName.not_concealed (h : st.BinaryName τ b) (hσ : st.source.Conceals σ) :
    ¬ σ <+: τ := by
  intro hbelow
  obtain ⟨top, members, hplaces, hnames, htop, hbodies, _⟩ := h
  obtain ⟨e, he, hkind⟩ := hσ
  have hopens : st.source.opensClassAt σ = true := by
    rcases hkind with hrole | ⟨hrole, _⟩ <;> simp [Source.opensClassAt, he, hrole, Role.opensClass]
  have hmem : σ ∈ top :: members := hplaces ▸ Source.mem_classPlaces.mpr ⟨hbelow, hopens⟩
  have hrole' := ((Source.namesType_iff he).mp (hnames σ hmem)).1
  rcases hkind with hrole | ⟨_, hdeep, hbody⟩
  · rw [hrole] at hrole'
    cases hrole'
  · rcases List.mem_cons.mp hmem with rfl | hmember
    · omega
    · exact hbody ((Source.inMemberBody_iff he).mp (hbodies σ hmember))

theorem Describes.of_names
    (hsimple : ∀ x, ctx.simple = some x ↔ st.source.NamesType τ ∧ st.source.nameAt τ = x)
    (hinternal : ∀ b, ctx.internal = some b ↔ st.BinaryName τ b) : st.Describes τ ctx := by
  refine ⟨hsimple, hinternal, ?_⟩
  intro σ hσ hbelow
  cases hb : ctx.internal with
  | none => rfl
  | some b => exact absurd hbelow (((hinternal b).mp hb).not_concealed hσ)

/-- The internal name of a class that is declared with a name under a parent of this kind. -/
def internalName? (st : Setting) (here : Surroundings) (parent x : String) : Option String :=
  if parent = "program" then some (st.topName x)
  else if parent ∈ memberBodies then
    (here.enclosing.internal.filter (· != "")).map fun o => o ++ "$" ++ x
  else none

theorem internalName_eq_some {here : Surroundings} {parent : String} :
    st.internalName? here parent x = some b ↔
      parent = "program" ∧ b = st.topName x ∨
        parent ≠ "program" ∧ parent ∈ memberBodies ∧
          ∃ o, here.enclosing.internal = some o ∧ o ≠ "" ∧ b = o ++ "$" ++ x := by
  unfold internalName?
  split
  · rename_i hparent
    simp [hparent, eq_comm]
  split
  · rename_i hparent hbody
    simp [hparent, hbody, Option.filter_eq_some_iff, and_assoc, eq_comm (a := b)]
  · rename_i hparent hbody
    simp [hparent, hbody]

theorem classContext_declared {here : Surroundings} {parent : String} {node : Node} (hx : x ≠ "")
    (hname : (node.child? "name").map st.source.text = some x) :
    st.classContext here parent node = ⟨st.internalName? here parent x, some x⟩ := by
  unfold classContext internalName?
  simp only [hname]
  split
  · simp only [topName, List.isSuffixOf_iff_suffix]
    split <;> rfl
  split
  · rename_i houter
    simp [houter]
  · rename_i houter
    simp [houter, Option.filter]
  · rename_i o hne houter
    have ho : o ≠ "" := hne
    simp only [List.contains_iff_mem, houter]
    split <;> simp [Option.filter, ho]

theorem classContext_nameless {here : Surroundings} {parent : String} {node : Node}
    (h : ((node.child? "name").map st.source.text).getD "" = "") :
    st.classContext here parent node = .unknown := by
  unfold classContext
  simp only
  split
  · rfl
  · rfl
  · rename_i x hne hx
    rw [hx] at h
    exact absurd h hne

/-- The classes at a place are described by their own places. -/
def Known (st : Setting) (π : Place) : Prop :=
  List.Forall₂ st.Describes (st.source.classPlaces π).reverse (st.classesAt π)

theorem known_top (st : Setting) : st.Known [] := .nil

/-- The class around a place has the binary name of the last class there. -/
theorem Known.enclosing (h : st.Known above) :
    (Surroundings.enclosing ⟨{}, st.classesAt above⟩).internal = some o ↔
      ∃ outer σ, st.source.classPlaces above = outer ++ [σ] ∧ st.BinaryName σ o := by
  unfold Known at h
  rcases List.eq_nil_or_concat' (st.source.classPlaces above) with hnone | ⟨outer, σ, hlast⟩
  · rw [hnone, List.reverse_nil, List.forall₂_nil_left_iff] at h
    simp [Surroundings.enclosing, h, ClassContext.unknown, hnone]
  · rw [hlast, List.reverse_concat, List.forall₂_cons_left_iff] at h
    obtain ⟨ctx, rest, hctx, _, hclasses⟩ := h
    rw [Surroundings.enclosing, hclasses, List.headD_cons, hctx.internal, hlast]
    constructor
    · intro hname
      exact ⟨outer, σ, rfl, hname⟩
    · rintro ⟨outer', σ', heq, hname⟩
      obtain rfl : σ = σ' := by simpa using (List.append_inj' heq rfl).2
      exact hname

/-- Nothing is known of a class that is not declared with a name. -/
theorem describes_unknown (hopens : st.source.opensClassAt (above ++ [i]) = true)
    (hnot : ¬ st.source.NamesType (above ++ [i])) : st.Describes (above ++ [i]) .unknown := by
  apply Describes.of_names
  · intro x
    simp [hnot, ClassContext.unknown]
  · intro b
    constructor
    · intro h
      cases h
    · intro h
      exact absurd (h.cases hopens).1 hnot

section Opened
variable (hprogram : st.source.IsProgram) (hmem : above ++ [i] ∈ st.source.places)
  (he : st.source.entryAt? (above ++ [i]) = some e)
  (hopens : st.source.opensClassAt (above ++ [i]) = true) (habove : st.Known above)
include hprogram hmem he hopens habove

/-- The internal name that is given to a declared class is its binary name. -/
theorem internalName_binary (hnames : st.source.NamesType (above ++ [i])) :
    st.internalName? ⟨{}, st.classesAt above⟩ e.parent (st.source.nameAt (above ++ [i])) = some b ↔
      st.BinaryName (above ++ [i]) b := by
  have htop := hprogram.parent_iff hmem he
  have hbody := Source.inMemberBody_iff he
  rw [internalName_eq_some]
  constructor
  · rintro (⟨hparent, rfl⟩ | ⟨_, hin, o, ho, _, rfl⟩)
    · obtain rfl := htop.mp hparent
      exact binaryName_top hopens hnames
    · obtain ⟨outer, σ, hlast, hσ⟩ := habove.enclosing.mp ho
      exact hσ.member hopens hlast hnames (hbody.mpr hin)
  · intro h
    rcases (h.cases hopens).2 with ⟨hnil, rfl⟩ | ⟨hin, outer, σ, o, hlast, hσ, rfl⟩
    · exact .inl ⟨htop.mpr hnil, rfl⟩
    · have hdeep : e.parent ≠ "program" := by
        intro hparent
        rw [htop.mp hparent, Source.classPlaces_top] at hlast
        simp at hlast
      have ho := habove.enclosing.mpr ⟨outer, σ, hlast, hσ⟩
      exact .inr ⟨hdeep, hbody.mp hin, o, ho, hσ.ne_empty, rfl⟩

/-- A class that a node opens is described by the node's place if those around it are by theirs. -/
theorem describes_opened (hctx : st.classOf? e ⟨{}, st.classesAt above⟩ = some ctx) :
    st.Describes (above ++ [i]) ctx := by
  have hnameAt : st.source.nameAt (above ++ [i]) =
      ((e.node.child? "name").map st.source.text).getD "" := by
    rw [Source.nameAt, he, Option.bind_some]
  unfold classOf? at hctx
  split at hctx
  · rename_i hrole
    cases hctx
    by_cases hempty : st.source.nameAt (above ++ [i]) = ""
    · rw [classContext_nameless (hnameAt ▸ hempty)]
      exact describes_unknown hopens fun hnames => hnames.2 hempty
    cases hname : (e.node.child? "name").map st.source.text with
    | none =>
      rw [hname] at hnameAt
      exact absurd hnameAt hempty
    | some x =>
      rw [hname, Option.getD_some] at hnameAt
      subst hnameAt
      have hnames := (Source.namesType_iff he).mpr ⟨hrole, hempty⟩
      rw [classContext_declared hempty hname]
      refine Describes.of_names (fun x => by simp [hnames]) fun b => ?_
      exact internalName_binary hprogram hmem he hopens habove hnames
  · rename_i hrole
    cases hctx
    refine describes_unknown hopens ?_
    intro hnames
    have hrole' := ((Source.namesType_iff he).mp hnames).1
    rw [hrole] at hrole'
    cases hrole'
  · cases hctx

end Opened

/-- The classes at every place that a pass enters are described by their places. -/
theorem known_of_entered (hprogram : st.source.IsProgram) (hmem : π ∈ st.source.places) :
    st.Known π := by
  induction π using List.reverseRecOn with
  | nil => exact st.known_top
  | append_singleton above i ih =>
    have habove : st.Known above := by
      by_cases hnil : above = []
      · rw [hnil]
        exact st.known_top
      · exact ih (Source.above_mem_places hnil hmem)
    cases hopens : st.source.opensClassAt (above ++ [i]) with
    | true =>
      obtain ⟨⟨e, he⟩, _⟩ := Source.mem_places.mp hmem
      obtain ⟨ctx, hctx, hclasses⟩ := classesAt_opened hopens
      rw [List.dropLast_concat] at hctx hclasses
      rw [classOpened?, he, Option.bind_some] at hctx
      rw [Known, hclasses, Source.classPlaces_opened hopens, List.reverse_concat]
      exact .cons (describes_opened hprogram hmem he hopens habove hctx) habove
    | false =>
      rw [Known, classesAt_around hopens, List.dropLast_concat, Source.classPlaces_around hopens]
      exact habove

/-- Whenever a pass has entered a node, its enclosing classes are, from the outermost on, those at
and around the node's place. Each has the name that it is declared with, and it has its binary name
if and only if the source shows one. -/
theorem enclosing_classes_are_named (hprogram : st.source.IsProgram) {k : Nat} {p q : Progress}
    (h : st.Enters k e p q) :
    ∃ π, st.source.places[k]? = some π ∧ st.source.entryAt? π = some e ∧
      List.Forall₂ st.Describes (st.source.classPlaces π) q.here.classes.reverse := by
  obtain ⟨π, hk, he⟩ := h.entryAt
  refine ⟨π, hk, he, ?_⟩
  rw [(h.classes hk).2, ← List.forall₂_reverse_iff, List.reverse_reverse]
  exact known_of_entered hprogram (List.mem_of_getElem? hk)

/-- The document of a member class. In a member class of it, a class is declared within an anonymous
one. -/
def deepClass : Setting :=
  let name (start stop : Nat) := Node.mk "identifier" "name" true false start stop []
  let deep := Node.plain "class_declaration" 11 15 [name 11 15]
  let anonymous := Node.plain "object_creation_expression" 11 15 [.plain "class_body" 11 15 [deep]]
  let inner :=
    Node.plain "class_declaration" 5 15 [name 5 10, .plain "class_body" 11 15 [anonymous]]
  let part := Node.plain "class_declaration" 0 15 [name 0 4, .plain "class_body" 5 15 [inner]]
  { corpus := ⟨[]⟩
    source := {
      document := ⟨"Part Inner Deep".toList, "demo/Main$Part", "demo.jar"⟩
      root := .plain "program" 0 15 [part] }
    config := {} }

theorem enclosing_classes_are_named_in_anonymous :
    let st := deepClass
    let places : List Place := [[0], [0, 1, 0], [0, 1, 0, 1, 0, 0], [0, 1, 0, 1, 0, 0, 0]]
    let classes : List ClassContext := [⟨some "demo/Main$Part", some "Part"⟩,
      ⟨some "demo/Main$Part$Inner", some "Inner"⟩, .unknown, ⟨none, some "Deep"⟩]
    st.source.IsProgram ∧ List.Forall₂ st.Describes places classes ∧
      ∃ e p q, st.Enters 8 e p q ∧ q.here.classes.reverse = classes := by
  intro st places classes
  have hprogram : st.source.IsProgram := ⟨rfl, by decide +kernel⟩
  have hk : st.source.places[8]? = some [0, 1, 0, 1, 0, 0, 0] := by decide +kernel
  obtain ⟨e, p, q, h⟩ := enters_every_place st hk
  have hclasses : q.here.classes.reverse = classes := by
    rw [(h.classes hk).2]
    decide +kernel
  obtain ⟨π, hπ, _, hdescribed⟩ := enclosing_classes_are_named hprogram h
  rw [hk] at hπ
  cases hπ
  rw [hclasses] at hdescribed
  have hplaces : st.source.classPlaces [0, 1, 0, 1, 0, 0, 0] = places := by decide +kernel
  rw [hplaces] at hdescribed
  exact ⟨hprogram, hdescribed, e, p, q, h, hclasses⟩

end Setting
end SourceLinks
