import SourceLinks.Proofs.Accounting
import SourceLinks.Proofs.EnclosingClasses
import SourceLinks.Proofs.LinkRule

namespace SourceLinks

namespace Setting
variable {st : Setting} {work done : List Work} {e : Entry} {p q start : Progress} {k : Nat}
variable {π : Place}

/-- The places that a pass enters, or those that it enters before it is cancelled. -/
def enteredPlaces (st : Setting) (cancelled : Nat → Bool) : List Place :=
  Node.placesAmong st.source.root.kind 0 (Node.uncancelled cancelled 0 st.source.root.children)

theorem enteredPlaces_eq (st : Setting) (cancelled : Nat → Bool) :
    st.enteredPlaces cancelled = st.source.places.take (st.entered cancelled).length := by
  obtain ⟨rest, hrest⟩ := Node.uncancelled_prefix cancelled 0 st.source.root.children
  rw [Source.places, ← hrest, Node.placesAmong_append, entered,
    ← Node.length_placesAmong st.source.root.kind 0, List.take_left]
  rfl

/-- These are the links that an import gets. The import of one class gets one to the only class
loaded among the readings of its name, and any other import gets none. -/
def ImportLinks (st : Setting) (d : Import) (links : List Link) : Prop :=
  if d.isSingleType then
    st.LinksOf d.node "import" (st.OnlyLoaded (ClassName.nestedForms d.internal)) links
  else links = []

/-- These are the links that the node at a place gets. The name of a class gets one to what it
stands for among the classes around it, a call gets at most one at the method's name, and no other
node gets any. -/
inductive NodeLinks (st : Setting) (π : Place) : List Link → Prop where
  | type {e : Entry} {name : TypeName} {links : List Link} (at_place : st.source.entryAt? π = some e)
      (role : e.role = .typeReference) (named : st.source.typeName? e.node = some name)
      (rule : st.LinksOf e.node "type" (st.StandsFor ⟨{}, st.classesAt π.dropLast⟩ name) links) :
      NodeLinks st π links
  | call {e : Entry} {name : Node} {links : List Link} (at_place : st.source.entryAt? π = some e)
      (role : e.role = .methodCall) (named : e.node.child? "name" = some name)
      (stand : ∀ l ∈ links, ∃ t, st.linkOf name t "method" = .ok l) (single : links.length ≤ 1) :
      NodeLinks st π links
  | none {e : Entry} (at_place : st.source.entryAt? π = some e)
      (no_reference : st.source.reference? e = none) : NodeLinks st π []

theorem linkImport_links {d : Import} (h : (st.linkImport p d).Yields q) :
    ∃ links, st.ImportLinks d links ∧ q.links = p.links ++ links := by
  rw [linkImport_yields h]
  unfold ImportLinks
  split
  · exact ⟨_, linksFor_linksOf fun c => probe_names none, recorded_links ..⟩
  · exact ⟨[], rfl, (List.append_nil _).symm⟩

theorem walkImports_links {ds : List Import} (h : (st.walkImports ds p).Yields q) :
    ∃ blocks, List.Forall₂ st.ImportLinks ds blocks ∧ q.links = p.links ++ blocks.flatten := by
  induction ds generalizing p with
  | nil =>
    rw [walkImports, Inquiry.pure_eq, Inquiry.yields_done] at h
    subst h
    exact ⟨[], .nil, (List.append_nil _).symm⟩
  | cons d ds ih =>
    rw [walkImports, Inquiry.yields_bind] at h
    obtain ⟨m, hm, hq⟩ := h
    obtain ⟨links, hlinks, hgrown⟩ := linkImport_links hm
    obtain ⟨blocks, hblocks, hrest⟩ := ih hq
    refine ⟨links :: blocks, .cons hlinks hblocks, ?_⟩
    rw [hrest, hgrown, List.flatten_cons, List.append_assoc]

theorem importPass_links (h : st.importPass.Yields p) :
    ∃ blocks, List.Forall₂ st.ImportLinks
      (if st.config.linkImports then st.imports.declarations else []) blocks ∧
      p.links = blocks.flatten := by
  unfold importPass at h
  split at h
  · rename_i hon
    rw [if_pos hon]
    exact walkImports_links h
  · rename_i hoff
    rw [Inquiry.pure_eq, Inquiry.yields_done] at h
    subst h
    rw [if_neg hoff]
    exact ⟨[], .nil, rfl⟩

theorem linkType_links (h : (st.linkType p e.node).Yields q) (hat : st.source.entryAt? π = some e)
    (hrole : e.role = .typeReference) (hclasses : p.here.classes = st.classesAt π.dropLast) :
    ∃ links, st.NodeLinks π links ∧ q.links = p.links ++ links := by
  rcases linkType_yields h with ⟨hname, rfl⟩ | ⟨name, hname, rfl⟩
  · refine ⟨[], .none hat ?_, (List.append_nil _).symm⟩
    simp only [Source.reference?, hrole, hname, Option.map_none]
  · refine ⟨_, .type hat hrole hname (linksFor_linksOf fun c => ?_), recorded_links ..⟩
    have hsame : st.StandsFor p.here name = st.StandsFor ⟨{}, st.classesAt π.dropLast⟩ name :=
      standsFor_congr hclasses name
    rw [← hsame]
    exact resolveType_names

theorem linkCall_links (h : (st.linkCall p e.node).Yields q) (hat : st.source.entryAt? π = some e)
    (hrole : e.role = .methodCall) : ∃ links, st.NodeLinks π links ∧ q.links = p.links ++ links := by
  rcases linkCall_yields h with ⟨hname, rfl⟩ | ⟨name, outcome, calls, hname, _, hq⟩
  · refine ⟨[], .none hat ?_, (List.append_nil _).symm⟩
    simp only [Source.reference?, hrole, hname, Option.map_none]
  rcases hq with ⟨res, _, rfl⟩ | ⟨crash, _, rfl⟩
  · exact ⟨_, .call hat hrole hname (fun l hl => linksFor_stand hl) (linksFor_single ..),
      recorded_links ..⟩
  · exact ⟨[], .call hat hrole hname (by simp) (Nat.zero_le 1), (List.append_nil _).symm⟩

/-- Entering the node at a place adds the links that it gets. -/
theorem Enters.adds_links (h : st.Enters k e p q) :
    ∃ π links, st.source.places[k]? = some π ∧ st.NodeLinks π links ∧ q.links = p.links ++ links := by
  obtain ⟨π, hk, hat⟩ := h.entryAt
  have hclasses := (h.classes hk).1
  obtain ⟨_, _, _, _, _, hq⟩ := h
  suffices hlinks : ∃ links, st.NodeLinks π links ∧ q.links = p.links ++ links by
    obtain ⟨links, hnode, hgrown⟩ := hlinks
    exact ⟨π, links, hk, hnode, hgrown⟩
  cases hrole : e.role with
  | typeReference =>
    rw [enter_typeReference hrole] at hq
    exact linkType_links hq hat hrole hclasses
  | methodCall =>
    rw [enter_methodCall hrole] at hq
    exact linkCall_links hq hat hrole
  | _ =>
    have hnone : st.source.reference? e = none := by simp only [Source.reference?, hrole]
    rcases enter_cases hq with ⟨ht, _⟩ | ⟨hc, _⟩ | rfl
    · cases hrole.symm.trans ht
    · cases hrole.symm.trans hc
    · exact ⟨[], .none hat hnone, (List.append_nil _).symm⟩

/-- The table grows place by place, by the links of each. -/
theorem Turns.links_blocks (hstart : st.importPass.Yields start)
    (h : st.Turns st.topWork start done work p) :
    ∃ blocks, List.Forall₂ st.NodeLinks (st.source.places.take (Work.entered done).length) blocks ∧
      p.links = start.links ++ blocks.flatten := by
  induction h with
  | start => exact ⟨[], .nil, (List.append_nil _).symm⟩
  | @turn done rest w q r h hw ih =>
    obtain ⟨blocks, hblocks, hlinks⟩ := ih
    rw [Work.entered_snoc]
    rcases perform_cases hw with
      ⟨scopes, classes, rfl, rfl⟩ | ⟨parent, n, rfl, hs, rfl⟩ | ⟨e, rfl, he, hq⟩
    · refine ⟨blocks, ?_, hlinks⟩
      rwa [Work.entry?, Option.toList_none, List.append_nil]
    · refine ⟨blocks, ?_, hlinks⟩
      rwa [Work.entry?, if_pos hs, Option.toList_none, List.append_nil]
    · have henters : st.Enters (Work.entered done).length e q r :=
        ⟨done, rest, ⟨start, hstart, h⟩, rfl, he, hq⟩
      obtain ⟨π, new, hk, hnode, hgrown⟩ := henters.adds_links
      have hs : isSkipped (Role.under e.parent e.node.kind) = false := he
      refine ⟨blocks ++ [new], ?_, ?_⟩
      · rw [Work.entry?, if_neg (Bool.eq_false_iff.mp hs), Option.toList_some, List.length_append,
          List.length_singleton, List.take_add_one, hk, Option.toList_some]
        exact List.rel_append hblocks (.cons hnode .nil)
      · rw [hgrown, hlinks, List.flatten_append, List.flatten_singleton, List.append_assoc]

/-- Links are sound, and complete for the rule that exactly one candidate is loaded.

Every link of the table that a pass returns, cancelled or not, names a class by a name that is not
empty and the archive that the class is taken from, which is loaded and holds it. And the table is
no more and no less than the links of the imports, if they are linked, and then those of the places
that the pass enters, in order: an import of one class that stands in the document has a link to a
class exactly if the class is the only one loaded among the readings of its name, and a type's name
exactly if it stands for the class. -/
theorem links_follow_one_rule (st : Setting) (cancelled : Nat → Bool) (corpus : Corpus) :
    (∀ l ∈ ((st.resolve cancelled).run corpus).1.1.links,
      l.name ≠ "" ∧ st.locate? l.name = some l.archive ∧
      (∃ a ∈ st.corpus.archives, a.id = l.archive ∧ a.hasClass l.name = true) ∧
      ∀ l' ∈ ((st.resolve cancelled).run corpus).1.1.links,
        l'.name = l.name → l'.archive = l.archive) ∧
    (∃ ofImports ofNodes,
      ((st.resolve cancelled).run corpus).1.1.links = ofImports.flatten ++ ofNodes.flatten ∧
      List.Forall₂ st.ImportLinks (if st.config.linkImports then st.imports.declarations else [])
        ofImports ∧
      List.Forall₂ st.NodeLinks (st.enteredPlaces cancelled) ofNodes) ∧
    (∀ here name, "" ∉ st.typeCandidates name ∧ "" ∉ st.secondaryCandidates here name) ∧
    ∀ names anchor, st.probe (names.filter (· != "")) anchor = st.probe names anchor := by
  have hy := Inquiry.run_yields (st.resolve cancelled) corpus
  refine ⟨?_, ?_, ?_, st.probe_filter⟩
  · obtain ⟨done, work, hstanding⟩ := Standing.of_resolve hy
    have hsound := hstanding.sound
    intro l hl
    obtain ⟨hnamed, hat⟩ := hsound.links l hl
    refine ⟨hnamed, hat, Corpus.holds_of_lookup hat, ?_⟩
    intro l' hl' hsame
    have hat' := (hsound.links l' hl').2
    rw [hsame, hat] at hat'
    exact (Option.some.inj hat').symm
  · rw [resolve, Inquiry.yields_bind] at hy
    obtain ⟨start, hstart, hp⟩ := hy
    obtain ⟨done, work, hturns, hdone⟩ := walkTop_entered hp
    have hentered : Work.entered done = st.entered cancelled := hdone
    obtain ⟨ofImports, himports, hfirst⟩ := importPass_links hstart
    obtain ⟨ofNodes, hnodes, hlinks⟩ := hturns.links_blocks hstart
    rw [hentered, ← enteredPlaces_eq] at hnodes
    rw [hfirst] at hlinks
    exact ⟨ofImports, ofNodes, hlinks, himports, hnodes⟩
  · intro here name
    exact ⟨st.empty_not_typeCandidate name, st.empty_not_secondaryCandidate here name⟩

/-- An import and a type name that it binds, and a type name that only the document's package has.
Two archives hold the latter's class, and the document's own wins. -/
theorem links_follow_one_rule_in_two_tiers :
    let name := Node.plain "scoped_identifier" 7 14 []
    let imported := Node.plain "import_declaration" 0 15 [name]
    let map := Node.plain "type_identifier" 16 19 []
    let set := Node.plain "type_identifier" 20 23 []
    let lib : Archive :=
      { id := "lib.jar", entries := ⟨[("lib/Map.class", []), ("demo/Set.class", [])]⟩ }
    let own : Archive := { id := "demo.jar", entries := ⟨[("demo/Set.class", [])]⟩ }
    let st := ofText [lib, own] "import lib.Map;\nMap Set" (.plain "program" 0 23 [imported, map, set])
    let table := ((st.resolve fun _ => false).run st.corpus).1.1.links
    table =
      [⟨7, 14, 1, 8, "lib.jar", "lib/Map", none, "import"⟩,
        ⟨16, 19, 2, 1, "lib.jar", "lib/Map", some "Map", "type"⟩,
        ⟨20, 23, 2, 5, "demo.jar", "demo/Set", some "Set", "type"⟩] ∧
      st.enteredPlaces (fun _ => false) = [[1], [2]] ∧
      ∃ ofImports ofNodes, table = ofImports.flatten ++ ofNodes.flatten ∧
        List.Forall₂ st.ImportLinks st.imports.declarations ofImports ∧
        List.Forall₂ st.NodeLinks [[1], [2]] ofNodes := by
  intro name imported map set lib own st table
  have hplaces : st.enteredPlaces (fun _ => false) = [[1], [2]] := by decide
  obtain ⟨_, hblocks, _⟩ := st.links_follow_one_rule (fun _ => false) st.corpus
  rw [hplaces] at hblocks
  exact ⟨by decide +kernel, hplaces, hblocks⟩

end Setting
end SourceLinks
