import Mathlib.Algebra.Ring.Nat
import Mathlib.Data.List.Perm.Basic
import SourceLinks.Graph.Basic
import SourceLinks.Proofs.Lines
import SourceLinks.Proofs.PlainGraphs

namespace SourceLinks

/-- What makes an edge the one that it is: its ends, its relation and its anchor. -/
structure Tie where
  source : String
  target : String
  relation : String
  anchor : String
deriving DecidableEq

namespace Tie

/-- The edge of a tie with these lines. -/
def edge (t : Tie) (lines : List Int) : ClassEdge :=
  ⟨t.source, t.target, t.relation ++ ":" ++ t.anchor, ⟨t.relation, t.anchor, lines⟩⟩

/-- The relation ends where the key has its first colon. -/
def IsPlain (t : Tie) : Prop :=
  ':' ∉ t.relation.toList

theorem key_toList (t : Tie) (lines : List Int) :
    (t.edge lines).key.toList = t.relation.toList ++ ':' :: t.anchor.toList := by
  simp [edge]

/-- Between the same ends no two ties have the same key. -/
theorem joins_iff {t u : Tie} (ht : t.IsPlain) (hu : u.IsPlain) (lines lines' : List Int) :
    (t.edge lines).joins (u.edge lines').source (u.edge lines').target (u.edge lines').key = true ↔
      t = u := by
  have hkey : (t.edge lines).key = (u.edge lines').key ↔
      t.relation = u.relation ∧ t.anchor = u.anchor := by
    constructor
    · intro h
      have hcut := congrArg (fun key => Text.cutAt? [':'] key.toList) h
      simp only [key_toList, Text.cutAt_sep ht, Text.cutAt_sep hu, Option.some.injEq, Prod.mk.injEq,
        String.toList_inj] at hcut
      exact hcut
    · rintro ⟨hrelation, hanchor⟩
      simp only [edge, hrelation, hanchor]
  obtain ⟨source, target, relation, anchor⟩ := t
  obtain ⟨source', target', relation', anchor'⟩ := u
  rw [Joined.joins_iff, hkey, mk.injEq]
  rfl

end Tie

/-- The node of a class. -/
def ClassNode.ofClass (archive internal : String) : ClassNode :=
  ⟨archive ++ "!" ++ internal, archive, ClassName.simple internal, internal⟩

/-- A link as it arrives, with the node that it starts from. -/
structure Arrival where
  source : String
  link : Link

namespace Arrival

def target (a : Arrival) : ClassNode :=
  .ofClass a.link.archive a.link.name

/-- Links of an unknown kind are references. -/
def relation (a : Arrival) : String :=
  if a.link.kind = "import" then "IMPORTS"
  else if a.link.kind = "method" then "CALLS"
  else "REFERENCES"

def tie (a : Arrival) : Tie :=
  ⟨a.source, a.target.id, a.relation, a.link.anchor.getD ""⟩

def line (a : Arrival) : Int :=
  a.link.line

theorem relation_mem (a : Arrival) : a.relation ∈ ["IMPORTS", "CALLS", "REFERENCES"] := by
  unfold relation
  split
  · decide
  · split <;> decide

theorem tie_plain (a : Arrival) : a.tie.IsPlain := by
  have hplain : ∀ r ∈ ["IMPORTS", "CALLS", "REFERENCES"], ':' ∉ r.toList := by decide
  exact hplain _ a.relation_mem

end Arrival

/-- The links of one class that are handed in together. -/
structure Batch where
  archive : String
  internal : String
  links : LinkTable

namespace Batch

def source (b : Batch) : ClassNode :=
  .ofClass b.archive b.internal

def arrivals (b : Batch) : List Arrival :=
  b.links.map (Arrival.mk b.source.id)

/-- The classes that a batch mentions: its own, then the target of each link. -/
def classes (b : Batch) : List ClassNode :=
  b.source :: b.arrivals.map Arrival.target

end Batch

/-- Of the mentioned classes the first with each identifier, in this order. -/
def firstMentions (mentioned : List ClassNode) : List ClassNode :=
  (mentioned.map ClassNode.id).eraseDups.filterMap fun id => mentioned.find? fun n => n.id == id

/-- One edge for each tie, in the order in which ties first occur, with the lines of all its links. -/
def bundles (arrived : List Arrival) : List ClassEdge :=
  (arrived.map Arrival.tie).eraseDups.map fun t =>
    t.edge ((arrived.filter fun a => a.tie == t).map Arrival.line)

section Nodes
variable {mentioned : List ClassNode}

theorem firstMentions_ids (mentioned : List ClassNode) :
    (firstMentions mentioned).map ClassNode.id = (mentioned.map ClassNode.id).eraseDups := by
  rw [firstMentions, List.map_filterMap]
  have hown : ∀ id ∈ (mentioned.map ClassNode.id).eraseDups,
      ((mentioned.find? fun n => n.id == id).map ClassNode.id) = some id := by
    intro id hid
    obtain ⟨m, hm, hid⟩ := List.mem_map.mp (List.mem_eraseDups.mp hid)
    have hsome : (mentioned.find? fun n => n.id == id).isSome := by
      rw [List.find?_isSome]
      exact ⟨m, hm, by simp [hid]⟩
    obtain ⟨n, hn⟩ := Option.isSome_iff_exists.mp hsome
    have hnid := List.find?_some hn
    rw [hn, Option.map_some]
    simpa using hnid
  rw [List.filterMap_congr hown, List.filterMap_some]

/-- One more mention: a class that is known stays as it is, and a new one comes last. -/
theorem firstMentions_concat (mentioned : List ClassNode) (n : ClassNode) :
    firstMentions (mentioned ++ [n]) =
      if n.id ∈ mentioned.map ClassNode.id then firstMentions mentioned
      else firstMentions mentioned ++ [n] := by
  have hlater : ∀ id ∈ (mentioned.map ClassNode.id).eraseDups,
      ((mentioned ++ [n]).find? fun n => n.id == id) = mentioned.find? fun n => n.id == id := by
    intro id hid
    obtain ⟨m, hm, hid⟩ := List.mem_map.mp (List.mem_eraseDups.mp hid)
    rw [List.find?_append, Option.or_of_isSome]
    rw [List.find?_isSome]
    exact ⟨m, hm, by simp [hid]⟩
  rw [firstMentions, List.map_append, List.map_singleton, eraseDups_concat, mention]
  simp only [List.mem_eraseDups]
  split
  · rw [List.filterMap_congr hlater, firstMentions]
  · rename_i hnew
    have hfirst : (mentioned.find? fun m => m.id == n.id) = none := by
      rw [List.find?_eq_none]
      intro m hm hid
      exact hnew (List.mem_map.mpr ⟨m, hm, by simpa using hid⟩)
    have hlast : ((mentioned ++ [n]).find? fun m => m.id == n.id) = some n := by
      rw [List.find?_append, hfirst]
      simp
    rw [List.filterMap_append, List.filterMap_congr hlater]
    simp only [List.filterMap_cons, hlast, List.filterMap_nil, firstMentions]

end Nodes

section Edges
variable {arrived : List Arrival} {a : Arrival}

/-- One more arrival: its line comes last among those of its tie. -/
theorem bundles_concat (arrived : List Arrival) (a : Arrival) :
    bundles (arrived ++ [a]) = (mention (arrived.map Arrival.tie).eraseDups a.tie).map fun t =>
      t.edge ((arrived.filter fun b => b.tie == t).map Arrival.line ++
        if t = a.tie then [a.line] else []) := by
  rw [bundles, List.map_append, List.map_singleton, eraseDups_concat]
  refine List.map_congr_left fun t _ => ?_
  by_cases ht : t = a.tie
  · subst ht
    simp
  · simp [ht, Ne.symm ht]

theorem joins_bundles (arrived : List Arrival) (a : Arrival) (lines : List Int) :
    (∃ e ∈ bundles arrived, e.joins (a.tie.edge lines).source (a.tie.edge lines).target
      (a.tie.edge lines).key = true) ↔ a.tie ∈ arrived.map Arrival.tie := by
  constructor
  · rintro ⟨e, he, hjoins⟩
    obtain ⟨t, ht, rfl⟩ := List.mem_map.mp he
    have hmem := List.mem_eraseDups.mp ht
    obtain ⟨b, _, rfl⟩ := List.mem_map.mp hmem
    rwa [← (Tie.joins_iff b.tie_plain a.tie_plain _ lines).mp hjoins]
  · intro h
    refine ⟨_, List.mem_map_of_mem (List.mem_eraseDups.mpr h), ?_⟩
    exact (Tie.joins_iff a.tie_plain a.tie_plain _ lines).mpr rfl

/-- A line goes to the edge of its tie. -/
theorem bundles_known (h : a.tie ∈ arrived.map Arrival.tie) (lines : List Int) :
    (bundles arrived).map (Joined.changeAt (a.tie.edge lines).source (a.tie.edge lines).target
      (a.tie.edge lines).key fun b => { b with lines := b.lines ++ [a.line] }) =
      bundles (arrived ++ [a]) := by
  rw [bundles_concat, mention, if_pos (List.mem_eraseDups.mpr h), bundles, List.map_map]
  refine List.map_congr_left fun t ht => ?_
  obtain ⟨b, _, rfl⟩ := List.mem_map.mp (List.mem_eraseDups.mp ht)
  have hjoins := Tie.joins_iff b.tie_plain a.tie_plain
    ((arrived.filter fun c => c.tie == b.tie).map Arrival.line) lines
  by_cases hsame : b.tie = a.tie
  · rw [Function.comp_apply, Joined.changeAt, if_pos (hjoins.mpr hsame), if_pos hsame]
    rfl
  · rw [Function.comp_apply, Joined.changeAt, if_neg (mt hjoins.mp hsame), if_neg hsame,
      List.append_nil]

/-- The first line of a tie makes a new edge. -/
theorem bundles_new (h : a.tie ∉ arrived.map Arrival.tie) :
    bundles arrived ++ [a.tie.edge [a.line]] = bundles (arrived ++ [a]) := by
  have hnone : arrived.filter (fun b => b.tie == a.tie) = [] :=
    List.filter_eq_nil_iff.mpr fun b hb htie => h (List.mem_map.mpr ⟨b, hb, by simpa using htie⟩)
  rw [bundles_concat, mention, if_neg (mt List.mem_eraseDups.mp h), List.map_append,
    List.map_singleton, hnone, if_pos rfl]
  congr 1
  refine List.map_congr_left fun t ht => ?_
  have hother : t ≠ a.tie := fun he => h (he ▸ List.mem_eraseDups.mp ht)
  rw [if_neg hother, List.append_nil]

theorem sum_lengths_bundles (arrived : List Arrival) :
    ((bundles arrived).map fun e => e.lines.length).sum = arrived.length := by
  have hgroups := perm_groups Arrival.tie (nodup_eraseDups (arrived.map Arrival.tie)) arrived
    fun a ha => List.mem_eraseDups.mpr (List.mem_map_of_mem ha)
  rw [← hgroups.length_eq, List.length_flatMap, bundles, List.map_map]
  simp [Function.comp_def, Tie.edge, ClassEdge.lines]

end Edges

namespace LinkFold
variable {γ : Type} [Multigraph γ ClassNode Bundle]

/-- The graph of these batches, folded in one after another. -/
def ofBatches (batches : List Batch) : γ :=
  batches.foldl (fun g b => addLinks g b.archive b.internal b.links) Multigraph.empty

/-- The graph is that of these mentions and arrivals. -/
structure Folded (g : γ) (mentioned : List ClassNode) (arrived : List Arrival) : Prop where
  nodes : Multigraph.nodes g = (firstMentions mentioned).map fun n => (n.id, n)
  edges : (Multigraph.edges g).Perm (bundles arrived)

theorem addLink_eq (g : γ) (a : Arrival) :
    addLink a.source g a.link =
      let h := ensure g a.link.archive a.link.name
      let e := a.tie.edge [a.line]
      if Multigraph.hasEdge h e.source e.target e.key then
        Multigraph.changeEdge h e.source e.target e.key fun b => { b with lines := b.lines ++ [a.line] }
      else Multigraph.addEdge h e := by
  have hrelation : relation a.link.kind = a.relation := by
    unfold relation Arrival.relation
    split <;> simp_all
  rw [addLink, hrelation]
  rfl

theorem ensure_known {g : γ} {archive internal : String}
    (h : Multigraph.hasNode g (nodeId archive internal) = true) : ensure g archive internal = g := by
  rw [ensure, if_pos h]

variable [LawfulMultigraph γ] {g : γ} {mentioned : List ClassNode} {arrived : List Arrival}

section Folding

theorem Folded.empty : Folded (Multigraph.empty : γ) [] [] :=
  ⟨LawfulMultigraph.nodes_empty, .of_eq LawfulMultigraph.edges_empty⟩

theorem Folded.hasNode_iff (h : Folded g mentioned arrived) (id : String) :
    Multigraph.hasNode g id = true ↔ id ∈ mentioned.map ClassNode.id := by
  have hids : ((firstMentions mentioned).map fun n => (n.id, n)).map Prod.fst =
      (firstMentions mentioned).map ClassNode.id := List.map_map
  rw [LawfulMultigraph.hasNode_iff, h.nodes, hids, firstMentions_ids, List.mem_eraseDups]

theorem Folded.ensure (h : Folded g mentioned arrived) (archive internal : String) :
    Folded (ensure g archive internal) (mentioned ++ [.ofClass archive internal]) arrived := by
  have hid : (ClassNode.ofClass archive internal).id = nodeId archive internal := rfl
  unfold LinkFold.ensure
  simp only
  split
  · rename_i hknown
    have hmentioned := (h.hasNode_iff _).mp hknown
    refine ⟨?_, h.edges⟩
    rw [firstMentions_concat, hid, if_pos hmentioned, h.nodes]
  · rename_i hnew
    have hmentioned := mt (h.hasNode_iff _).mpr hnew
    have hnew := Bool.eq_false_iff.mpr hnew
    refine ⟨?_, (LawfulMultigraph.edges_addNode hnew _).trans h.edges⟩
    rw [LawfulMultigraph.nodes_addNode hnew, firstMentions_concat, hid, if_neg hmentioned, h.nodes,
      List.map_append]
    rfl

theorem Folded.addLink (h : Folded g mentioned arrived) {a : Arrival}
    (hsource : a.source ∈ mentioned.map ClassNode.id) :
    Folded (addLink a.source g a.link) (mentioned ++ [a.target]) (arrived ++ [a]) := by
  rw [addLink_eq]
  have hwith := h.ensure a.link.archive a.link.name
  generalize LinkFold.ensure g a.link.archive a.link.name = g' at hwith
  have htie : Multigraph.hasEdge g' (a.tie.edge [a.line]).source (a.tie.edge [a.line]).target
      (a.tie.edge [a.line]).key = true ↔ a.tie ∈ arrived.map Arrival.tie := by
    rw [LawfulMultigraph.hasEdge_iff, ← joins_bundles arrived a [a.line]]
    simp only [hwith.edges.mem_iff]
  simp only
  split
  · rename_i hknown
    refine ⟨(LawfulMultigraph.nodes_changeEdge hknown _).trans hwith.nodes, ?_⟩
    rw [← bundles_known (htie.mp hknown) [a.line]]
    exact (LawfulMultigraph.edges_changeEdge hknown _).trans (hwith.edges.map _)
  · rename_i hnew
    have hends : ∀ id ∈ mentioned.map ClassNode.id ++ [a.target.id],
        Multigraph.hasNode g' id = true := by
      intro id hid
      rw [hwith.hasNode_iff, List.map_append]
      exact hid
    have hsource : Multigraph.hasNode g' (a.tie.edge [a.line]).source = true :=
      hends _ (List.mem_append_left _ hsource)
    have htarget : Multigraph.hasNode g' (a.tie.edge [a.line]).target = true :=
      hends _ (List.mem_append_right _ List.mem_cons_self)
    refine ⟨(LawfulMultigraph.nodes_addEdge hsource htarget).trans hwith.nodes, ?_⟩
    rw [← bundles_new (mt htie.mpr hnew)]
    refine (LawfulMultigraph.edges_addEdge hsource htarget ?_).trans (hwith.edges.append_right _)
    exact Bool.eq_false_iff.mpr hnew

theorem Folded.foldl_addLink (source : String) (links : LinkTable) (h : Folded g mentioned arrived)
    (hsource : source ∈ mentioned.map ClassNode.id) :
    Folded (links.foldl (LinkFold.addLink source) g)
      (mentioned ++ (links.map (Arrival.mk source)).map Arrival.target)
      (arrived ++ links.map (Arrival.mk source)) := by
  induction links generalizing g mentioned arrived with
  | nil => simpa using h
  | cons l links ih =>
    have hfirst := h.addLink (a := ⟨source, l⟩) hsource
    have hrest := ih hfirst (List.map_append ▸ List.mem_append_left _ hsource)
    simpa only [List.append_assoc, List.singleton_append, List.map_cons, List.foldl_cons] using hrest

theorem Folded.foldl_addLinks (batches : List Batch) (h : Folded g mentioned arrived) :
    Folded (batches.foldl (fun g b => addLinks g b.archive b.internal b.links) g)
      (mentioned ++ batches.flatMap Batch.classes) (arrived ++ batches.flatMap Batch.arrivals) := by
  induction batches generalizing g mentioned arrived with
  | nil => simpa using h
  | cons b batches ih =>
    have hsource : b.source.id ∈ (mentioned ++ [b.source]).map ClassNode.id := by simp
    have hbatch := (h.ensure b.archive b.internal).foldl_addLink _ b.links hsource
    have hrest := ih hbatch
    rw [List.append_assoc, List.append_assoc, List.append_assoc] at hrest
    exact hrest

/-- The graph of some batches is known from what they mention and what arrives with them. -/
theorem folded_ofBatches (batches : List Batch) :
    Folded (ofBatches batches : γ) (batches.flatMap Batch.classes) (batches.flatMap Batch.arrivals) :=
  Folded.empty.foldl_addLinks batches

end Folding

section Splitting
variable {archive internal id : String}

theorem hasNode_ensure (g : γ) (archive internal : String) :
    Multigraph.hasNode (ensure g archive internal) id = true ↔
      Multigraph.hasNode g id = true ∨ id = nodeId archive internal := by
  unfold ensure
  simp only
  split
  · rename_i hknown
    constructor
    · exact .inl
    · rintro (h | rfl)
      · exact h
      · exact hknown
  · rename_i hnew
    rw [LawfulMultigraph.hasNode_iff, LawfulMultigraph.hasNode_iff,
      LawfulMultigraph.nodes_addNode (Bool.eq_false_iff.mpr hnew), List.map_append, List.mem_append,
      List.map_singleton, List.mem_singleton]

/-- Folding a link in takes no node away. -/
theorem hasNode_addLink {source : String} (hsource : Multigraph.hasNode g source = true)
    (h : Multigraph.hasNode g id = true) (l : Link) :
    Multigraph.hasNode (addLink source g l) id = true := by
  have hkept : ∀ k, Multigraph.hasNode g k = true →
      Multigraph.hasNode (ensure g l.archive l.name) k = true := fun k hk =>
    (hasNode_ensure g _ _).mpr (.inl hk)
  have htarget : Multigraph.hasNode (ensure g l.archive l.name) (nodeId l.archive l.name) = true :=
    (hasNode_ensure g _ _).mpr (.inr rfl)
  have hid := hkept id h
  rw [LawfulMultigraph.hasNode_iff] at hid ⊢
  unfold addLink
  simp only
  split
  · rename_i hedge
    rwa [LawfulMultigraph.nodes_changeEdge hedge]
  · rwa [LawfulMultigraph.nodes_addEdge (hkept source hsource) htarget]

/-- Links may as well be handed in in two parts. -/
theorem addLinks_append (g : γ) (archive internal : String) (first more : LinkTable) :
    addLinks g archive internal (first ++ more) =
      addLinks (addLinks g archive internal first) archive internal more := by
  have hown : Multigraph.hasNode (ensure g archive internal) (nodeId archive internal) = true :=
    (hasNode_ensure g _ _).mpr (.inr rfl)
  have hkept : ∀ (links : LinkTable) (g : γ),
      Multigraph.hasNode g (nodeId archive internal) = true →
      Multigraph.hasNode (links.foldl (addLink (nodeId archive internal)) g)
        (nodeId archive internal) = true := by
    intro links
    induction links with
    | nil => exact fun _ h => h
    | cons l links ih => exact fun g h => ih _ (hasNode_addLink h h l)
  unfold addLinks
  rw [List.foldl_append, ensure_known (hkept first _ hown)]

end Splitting

section Summary

/-- One more edge of a relation. -/
def counted (t : Keyed Nat) (e : ClassEdge) : Keyed Nat :=
  t.set e.relation ((t.get? e.relation).getD 0 + 1)

theorem get_counted (edges : List ClassEdge) (t : Keyed Nat) (r : String) :
    (edges.foldl counted t).get? r =
      if r ∈ edges.map ClassEdge.relation then
        some ((t.get? r).getD 0 + (edges.map ClassEdge.relation).count r)
      else t.get? r := by
  induction edges using List.reverseRecOn with
  | nil => simp
  | append_singleton edges e ih =>
    rw [List.foldl_append, List.foldl_cons, List.foldl_nil, counted, Keyed.get_set]
    by_cases hr : r = e.relation
    · subst hr
      rw [if_pos rfl, ih]
      by_cases hmem : e.relation ∈ edges.map ClassEdge.relation
      · simp [hmem, Nat.add_assoc]
      · rw [if_neg hmem]
        simp [List.count_eq_zero.mpr hmem]
    · rw [if_neg hr, ih]
      simp [hr, Ne.symm hr]

/-- The summary counts the edges of each relation, where no relation has the name of the first
entry. -/
theorem summary_eq (hrelations : "classes" ∉ (Multigraph.edges g).map ClassEdge.relation) :
    summary g = ("classes", (Multigraph.nodes g).length) ::
      ((Multigraph.edges g).map ClassEdge.relation).eraseDups.map fun r =>
        (r, ((Multigraph.edges g).map ClassEdge.relation).count r) := by
  let relations := (Multigraph.edges g).map ClassEdge.relation
  let start : Keyed Nat := ⟨[("classes", (Multigraph.nodes g).length)]⟩
  have hothers : relations.filter (fun r => !r == "classes") = relations := by
    refine List.filter_eq_self.mpr fun r hr => ?_
    have hne : r ≠ "classes" := fun he => hrelations (he ▸ hr)
    simpa using hne
  have hkeys : ((Multigraph.edges g).foldl counted start).keys = "classes" :: relations.eraseDups := by
    calc ((Multigraph.edges g).foldl counted start).keys
        = relations.foldl mention ["classes"].eraseDups := Keyed.keys_foldl ..
      _ = ("classes" :: relations).eraseDups := foldl_mention ["classes"] relations
      _ = "classes" :: relations.eraseDups := by rw [List.eraseDups_cons, hothers]
  have hnodup : ((Multigraph.edges g).foldl counted start).keys.Nodup := by
    rw [hkeys, List.nodup_cons, List.mem_eraseDups]
    exact ⟨hrelations, nodup_eraseDups _⟩
  have hclasses : ((Multigraph.edges g).foldl counted start).get? "classes" =
      some (Multigraph.nodes g).length := by
    rw [get_counted, if_neg hrelations]
    rfl
  have hcounts : ∀ r ∈ relations.eraseDups,
      ((((Multigraph.edges g).foldl counted start).get? r).map fun n => (r, n)) =
        some (r, relations.count r) := by
    intro r hr
    have hmem : r ∈ relations := List.mem_eraseDups.mp hr
    have hstart : start.get? r = none := by
      have hne : r ≠ "classes" := fun he => hrelations (he ▸ hmem)
      rw [Keyed.get?, Keyed.lookup_cons_if, if_neg hne]
      rfl
    rw [get_counted, if_pos hmem, hstart, Option.getD_none, Nat.zero_add, Option.map_some]
  have hsummary : summary g = ((Multigraph.edges g).foldl counted start).entries := by
    rw [summary, LawfulMultigraph.nodeCount_eq]
    rfl
  have hmap : (relations.eraseDups.filterMap fun r => some (r, relations.count r)) =
      relations.eraseDups.map fun r => (r, relations.count r) :=
    congrFun List.filterMap_eq_map _
  rw [hsummary, Keyed.entries_eq hnodup, hkeys, List.filterMap_cons, hclasses,
    List.filterMap_congr hcounts, hmap]
  rfl

end Summary

/-- Folding links into the graph loses nothing and has nothing twice, whatever library of graphs
keeps it.

For all batches of links, handed in one after another, the graph has one node for each identifier
that is mentioned as a source or a target, in the order of first mention. It has one edge for each
tie that occurs, with the lines of all its links in the order of arrival, so there are as many lines
as links. The summary counts the classes and the edges of each relation. Links of one class can as
well be handed in in several parts. -/
theorem folding_keeps_every_link (batches : List Batch) :
    let mentioned := batches.flatMap Batch.classes
    let arrived := batches.flatMap Batch.arrivals
    let g : γ := ofBatches batches
    (Multigraph.nodes g).map Prod.fst = (mentioned.map ClassNode.id).eraseDups ∧
    (Multigraph.nodes g = (mentioned.map ClassNode.id).eraseDups.filterMap fun id =>
      (mentioned.find? fun n => n.id == id).map fun n => (id, n)) ∧
    ((Multigraph.edges g).Perm <| (arrived.map Arrival.tie).eraseDups.map fun t =>
      t.edge ((arrived.filter fun a => a.tie == t).map Arrival.line)) ∧
    ((Multigraph.edges g).map fun e => e.data.lines.length).sum =
      (batches.map fun b => b.links.length).sum ∧
    (summary g = ("classes", (mentioned.map ClassNode.id).eraseDups.length) ::
      ((Multigraph.edges g).map fun e => e.data.relation).eraseDups.map fun r =>
        (r, ((Multigraph.edges g).map fun e => e.data.relation).count r)) ∧
    ∀ (start : γ) (archive internal : String) (first : LinkTable) (more : List LinkTable),
      addLinks start archive internal (first ++ more.flatten) =
        more.foldl (fun g links => addLinks g archive internal links)
          (addLinks start archive internal first) := by
  intro mentioned arrived g
  have hfolded : Folded g mentioned arrived := folded_ofBatches batches
  have hids : (Multigraph.nodes g).map Prod.fst = (mentioned.map ClassNode.id).eraseDups := by
    rw [hfolded.nodes, ← firstMentions_ids, List.map_map]
    rfl
  have hrelations : "classes" ∉ (Multigraph.edges g).map ClassEdge.relation := by
    intro hmem
    obtain ⟨e, he, hclasses⟩ := List.mem_map.mp hmem
    obtain ⟨t, ht, rfl⟩ := List.mem_map.mp (hfolded.edges.mem_iff.mp he)
    obtain ⟨a, _, rfl⟩ := List.mem_map.mp (List.mem_eraseDups.mp ht)
    have hlisted := a.relation_mem
    have hname : a.relation = "classes" := hclasses
    rw [hname] at hlisted
    exact absurd hlisted (by decide)
  refine ⟨hids, ?_, hfolded.edges, ?_, ?_, ?_⟩
  · rw [hfolded.nodes, firstMentions, List.map_filterMap]
    refine List.filterMap_congr fun id _ => Option.map_congr fun n hn => ?_
    have hid : n.id = id := by simpa using List.find?_some hn
    rw [hid]
  · have hlengths := (hfolded.edges.map fun e => e.data.lines.length).sum_nat
    rw [hlengths]
    refine (sum_lengths_bundles arrived).trans ?_
    rw [List.length_flatMap]
    simp only [Batch.arrivals, List.length_map]
  · rw [← hids, List.length_map]
    exact summary_eq hrelations
  · intro start archive internal first more
    induction more generalizing first with
    | nil => simp
    | cons links more ih =>
      rw [List.flatten_cons, ← List.append_assoc, ih, List.foldl_cons, addLinks_append]

/-- A class that calls a method of another one in two batches, and refers to itself. -/
def twoBatches : List Batch :=
  let link := fun line name anchor kind => Link.mk 0 3 line 1 "lib.jar" name anchor kind
  [⟨"lib.jar", "demo/Main", [link 1 "lib/Map" none "import", link 4 "lib/Map" (some "get") "method",
    link 5 "demo/Main" none "type"]⟩,
  ⟨"lib.jar", "demo/Main", [link 9 "lib/Map" (some "get") "method"]⟩]

theorem folding_keeps_every_link_of_two_batches :
    let main := "lib.jar!demo/Main"
    let map := "lib.jar!lib/Map"
    let g : ClassGraph := ofBatches twoBatches
    (Multigraph.nodes g).map Prod.fst = [main, map] ∧
    Multigraph.nodes g = [(main, ⟨main, "lib.jar", "Main", "demo/Main"⟩),
      (map, ⟨map, "lib.jar", "Map", "lib/Map"⟩)] ∧
    (Multigraph.edges g).Perm [⟨main, map, "IMPORTS:", ⟨"IMPORTS", "", [1]⟩⟩,
      ⟨main, map, "CALLS:get", ⟨"CALLS", "get", [4, 9]⟩⟩,
      ⟨main, main, "REFERENCES:", ⟨"REFERENCES", "", [5]⟩⟩] ∧
    ((Multigraph.edges g).map fun e => e.data.lines.length).sum = 4 ∧
    summary g = [("classes", 2), ("IMPORTS", 1), ("CALLS", 1), ("REFERENCES", 1)] := by
  intro main map g
  obtain ⟨hids, hnodes, hedges, hlines, hsummary, _⟩ :=
    folding_keeps_every_link (γ := ClassGraph) twoBatches
  refine ⟨hids.trans (by decide), hnodes.trans (by decide), hedges.trans (.of_eq (by decide)),
    hlines.trans (by decide), hsummary.trans (by decide)⟩

end LinkFold
end SourceLinks
