import Mathlib.Data.List.Pairwise
import SourceLinks.Proofs.Agenda
import SourceLinks.Proofs.LinkRule
import SourceLinks.Proofs.Spans

namespace SourceLinks

namespace Node
variable {text : List Char} {root n a b c : Node}

/-- The node is the other one or stands somewhere below it. -/
inductive Within : Node → Node → Prop where
  | self (n : Node) : Within n n
  | under {n c top : Node} (hc : c ∈ top.children) (h : Within n c) : Within n top

/-- Children lie inside their parent, one behind the other, and every node starts and stops between
two characters of the text. -/
inductive LaidOut (text : List Char) : Node → Prop where
  | node {n : Node} (start : IsBoundary text n.start) (stop : IsBoundary text n.stop)
      (inside : ∀ c ∈ n.children, n.start ≤ c.start ∧ c.stop ≤ n.stop)
      (apart : n.children.Pairwise fun c d => c.stop ≤ d.start)
      (children : ∀ c ∈ n.children, LaidOut text c) : LaidOut text n

theorem Within.child (h : n.Within root) (hc : c ∈ n.children) : c.Within root := by
  induction h with
  | self => exact .under hc (.self c)
  | under hd _ ih => exact .under hd ih

theorem LaidOut.within (h : root.LaidOut text) (hn : n.Within root) : n.LaidOut text := by
  induction hn with
  | self => exact h
  | under hc _ ih =>
    cases h with
    | node _ _ _ _ children => exact ih (children _ hc)

/-- What stands below a node lies inside it. -/
theorem LaidOut.inside (h : root.LaidOut text) (hn : n.Within root) :
    root.start ≤ n.start ∧ n.stop ≤ root.stop := by
  induction hn with
  | self => exact ⟨Nat.le_refl _, Nat.le_refl _⟩
  | under hc _ ih =>
    cases h with
    | node _ _ inside _ children =>
      obtain ⟨hstart, hstop⟩ := inside _ hc
      obtain ⟨hstart', hstop'⟩ := ih (children _ hc)
      exact ⟨Nat.le_trans hstart hstart', Nat.le_trans hstop' hstop⟩

/-- Of two nodes one lies inside the other, or one stops before the other starts. -/
def Tidy (a b : Node) : Prop :=
  (b.start ≤ a.start ∧ a.stop ≤ b.stop) ∨ (a.start ≤ b.start ∧ b.stop ≤ a.stop) ∨
    a.stop ≤ b.start ∨ b.stop ≤ a.start

theorem LaidOut.tidy (h : root.LaidOut text) (ha : a.Within root) (hb : b.Within root) :
    a.Tidy b := by
  -- Down to the node at which the ways to the two part.
  induction ha with
  | self => exact .inr (.inl (h.inside hb))
  | under hc ha ih =>
    cases hb with
    | self => exact .inl (h.inside (.under hc ha))
    | under hd hb =>
      rename_i c root d
      cases h with
      | node _ _ _ apart children =>
        have hac := (children c hc).inside ha
        have hbd := (children d hd).inside hb
        by_cases hcd : c = d
        · subst hcd
          exact ih (children c hc) hb
        · have hsides : root.children.Pairwise fun x y => x.stop ≤ y.start ∨ y.stop ≤ x.start :=
            apart.imp .inl
          have : Std.Symm fun x y : Node => x.stop ≤ y.start ∨ y.stop ≤ x.start :=
            ⟨fun _ _ h => h.symm⟩
          unfold Tidy
          rcases hsides.forall hc hd hcd with hbefore | hbehind
          · omega
          · omega

/-- The items of a walk enter nodes of the tree. -/
theorem within_of_mem_agenda {parent above : String} (h : .enter above n ∈ root.agenda parent) :
    n.Within root := by
  induction root using Node.induct generalizing parent with
  | step root ih =>
    have hexit : ∀ role, .enter above n ∉ (Work.exitOf? role).toList := by
      intro role
      cases role <;> simp [Work.exitOf?]
    rw [agenda_eq, List.mem_cons] at h
    rcases h with h | h
    · cases h
      exact .self n
    · split at h
      · simp at h
      · simp only [List.mem_append, List.mem_flatMap, hexit, or_false] at h
        obtain ⟨c, hc, hn⟩ := h
        exact .under hc (ih c hc hn)

end Node

namespace Link
variable {l m : Link} {offset : Int}

/-- The span of a link lies inside that of another. -/
def Inside (l m : Link) : Prop :=
  m.start ≤ l.start ∧ l.stop ≤ m.stop

/-- One of the spans stops before the other starts. -/
def Apart (l m : Link) : Prop :=
  l.stop ≤ m.start ∨ m.stop ≤ l.start

/-- The spans are nested or disjoint. -/
def Tidy (l m : Link) : Prop :=
  l.Inside m ∨ m.Inside l ∨ l.Apart m

theorem covers_iff : l.covers offset = true ↔ l.start ≤ offset ∧ offset < l.stop := by
  simp [covers]

/-- Of two tidy links over one offset, the one that is no wider lies inside the other. -/
theorem Tidy.inside (h : l.Tidy m) (hl : l.covers offset = true) (hm : m.covers offset = true)
    (hwidth : l.width ≤ m.width) : l.Inside m := by
  rw [covers_iff] at hl hm
  unfold Tidy Inside Apart at h
  unfold width at hwidth
  unfold Inside
  omega

theorem Inside.width (h : l.Inside m) : l.width ≤ m.width := by
  unfold Inside at h
  unfold Link.width
  omega

end Link

namespace LinkTable
variable {t : LinkTable} {offset : Int} {l : Link} {i : Nat}

/-- Of these numbered links none is narrower, and none with a smaller number is as narrow. -/
def IsNarrowest (x : Link × Nat) (hits : List (Link × Nat)) : Prop :=
  ∀ y ∈ hits, x.1.width ≤ y.1.width ∧ (y.2 < x.2 → x.1.width < y.1.width)

theorem foldl_narrower (first : Link × Nat) (rest : List (Link × Nat))
    (hsorted : (first :: rest).Pairwise fun x y => x.2 < y.2) :
    rest.foldl narrower first ∈ first :: rest ∧
      IsNarrowest (rest.foldl narrower first) (first :: rest) := by
  induction rest generalizing first with
  | nil => simp [IsNarrowest]
  | cons next rest ih =>
    rw [List.pairwise_cons, List.pairwise_cons] at hsorted
    obtain ⟨hfirst, hnext, hrest⟩ := hsorted
    have hbefore := hfirst next List.mem_cons_self
    rw [List.foldl_cons, narrower]
    split
    · rename_i hless
      obtain ⟨hmem, hbest⟩ := ih next (List.pairwise_cons.mpr ⟨hnext, hrest⟩)
      refine ⟨List.mem_cons_of_mem first hmem, ?_⟩
      intro y hy
      rcases List.mem_cons.mp hy with rfl | hy
      · have hwidth := (hbest next List.mem_cons_self).1
        exact ⟨by omega, fun _ => by omega⟩
      · exact hbest y hy
    · rename_i hless
      have hlater : ∀ y ∈ rest, first.2 < y.2 := fun y hy => hfirst y (List.mem_cons_of_mem next hy)
      obtain ⟨hmem, hbest⟩ := ih first (List.pairwise_cons.mpr ⟨hlater, hrest⟩)
      have hfront := hbest first List.mem_cons_self
      refine ⟨?_, ?_⟩
      · rcases List.mem_cons.mp hmem with hmem | hmem
        · rw [hmem]
          exact List.mem_cons_self
        · exact List.mem_cons_of_mem first (List.mem_cons_of_mem next hmem)
      · intro y hy
        rcases List.mem_cons.mp hy with rfl | hy
        · exact hfront
        rcases List.mem_cons.mp hy with rfl | hy
        · -- A link behind `next` is behind `first` too, and so narrower than it.
          exact ⟨by omega, fun hless' => by have := hfront.2 (by omega); omega⟩
        · exact hbest y (List.mem_cons_of_mem first hy)

/-- The links over an offset, numbered. -/
theorem mem_hits {x : Link × Nat} :
    x ∈ (t.zipIdx).filter (fun y => y.1.covers offset) ↔
      t[x.2]? = some x.1 ∧ x.1.covers offset = true := by
  rw [List.mem_filter, List.mem_zipIdx_iff_getElem?]

theorem hits_sorted (t : LinkTable) (offset : Int) :
    ((t.zipIdx).filter fun y => y.1.covers offset).Pairwise fun x y => x.2 < y.2 := by
  apply List.Pairwise.filter
  have hindices : (t.zipIdx.map Prod.snd).Pairwise (· < ·) := by
    rw [List.zipIdx_map_snd]
    exact List.pairwise_lt_range'
  exact List.pairwise_map.mp hindices

theorem at_eq_none : t.at? offset = none ↔ ∀ l ∈ t, l.covers offset = false := by
  have hhits : t.at? offset = none ↔ ((t.zipIdx).filter fun y => y.1.covers offset) = [] := by
    unfold at?
    split
    · rename_i hnil
      exact ⟨fun _ => hnil, fun _ => rfl⟩
    · rename_i hcons
      rw [hcons]
      simp
  rw [hhits, List.filter_eq_nil_iff]
  constructor
  · intro h l hl
    obtain ⟨i, hi⟩ := List.mem_iff_getElem?.mp hl
    have hmem : (l, i) ∈ t.zipIdx := List.mem_zipIdx_iff_getElem?.mpr hi
    simpa using h (l, i) hmem
  · rintro h ⟨l, i⟩ hmem
    have hl := h l (List.mem_iff_getElem?.mpr ⟨i, List.mem_zipIdx_iff_getElem?.mp hmem⟩)
    simp [hl]

/-- The answer to a click is one of the narrowest links over the offset, and the first of them. -/
theorem at_eq_some (h : t.at? offset = some (l, i)) :
    t[i]? = some l ∧ l.covers offset = true ∧
      ∀ j m, t[j]? = some m → m.covers offset = true →
        l.width ≤ m.width ∧ (j < i → l.width < m.width) := by
  unfold at? at h
  split at h
  · cases h
  · rename_i first rest hhits
    have hsorted := hits_sorted t offset
    rw [hhits] at hsorted
    obtain ⟨hmem, hbest⟩ := foldl_narrower first rest hsorted
    rw [Option.some.inj h, ← hhits] at hmem hbest
    obtain ⟨hat, hcovers⟩ := mem_hits.mp hmem
    exact ⟨hat, hcovers, fun j m hj hm => hbest (m, j) (mem_hits.mpr ⟨hj, hm⟩)⟩

/-- The link with number `i` covers the offset and lies inside every link that does, and no earlier
link is like that. -/
structure Innermost (t : LinkTable) (offset : Int) (l : Link) (i : Nat) : Prop where
  listed : t[i]? = some l
  covers : l.covers offset = true
  inside : ∀ m ∈ t, m.covers offset = true → l.Inside m
  earliest : ∀ j < i, ∀ k, t[j]? = some k → k.covers offset = true →
    ∃ m ∈ t, m.covers offset = true ∧ ¬ k.Inside m

theorem Innermost.unique {k : Link} {j : Nat} (h : t.Innermost offset l i)
    (h' : t.Innermost offset k j) : i ≤ j := by
  by_contra hless
  obtain ⟨m, hm, hcovers, hnot⟩ := h.earliest j (by omega) k h'.listed h'.covers
  exact hnot (h'.inside m hm hcovers)

/-- Where links are nested or disjoint, a click follows the innermost link over its offset. -/
theorem at_innermost (htidy : ∀ l ∈ t, ∀ m ∈ t, l.Tidy m) :
    t.at? offset = some (l, i) ↔ t.Innermost offset l i := by
  have hsound : ∀ {l i}, t.at? offset = some (l, i) → t.Innermost offset l i := by
    intro l i h
    obtain ⟨hat, hcovers, hbest⟩ := at_eq_some h
    have hl : l ∈ t := List.mem_of_getElem? hat
    refine ⟨hat, hcovers, ?_, ?_⟩
    · intro m hm hmcovers
      obtain ⟨j, hj⟩ := List.mem_iff_getElem?.mp hm
      exact (htidy l hl m hm).inside hcovers hmcovers (hbest j m hj hmcovers).1
    · intro j hj k hk hkcovers
      have hwider := (hbest j k hk hkcovers).2 hj
      exact ⟨l, hl, hcovers, fun hinside => by have := hinside.width; omega⟩
  refine ⟨hsound, ?_⟩
  intro h
  cases hat : t.at? offset with
  | none =>
    have huncovered := at_eq_none.mp hat l (List.mem_of_getElem? h.listed)
    rw [h.covers] at huncovered
    cases huncovered
  | some found =>
    obtain ⟨k, j⟩ := found
    have hk := hsound hat
    obtain rfl : i = j := Nat.le_antisymm (h.unique hk) (hk.unique h)
    rw [Option.some.inj (h.listed.symm.trans hk.listed)]

end LinkTable

/-- The offset of an octet of the encoded text, if its position has one. -/
def Source.offsetOf (s : Source) (b : Nat) : Except OutOfRange Int :=
  s.document.offsetIndex.offset (s.document.charPosition (Point.ofByte s.code b))

/-- From octets to characters nothing changes places. -/
theorem Source.offsetOf_mono {s : Source} {a b : Nat} {first last : Int}
    (ha : IsBoundary s.document.text a) (hb : IsBoundary s.document.text b) (hab : a ≤ b)
    (hfirst : s.offsetOf a = .ok first) (hlast : s.offsetOf b = .ok last) : first ≤ last := by
  obtain ⟨front, mid, back, htext, hstart, hstop⟩ := ha.between hb hab
  have htext' : s.document.text = front ++ (mid ++ back) := by
    rw [htext, List.append_assoc]
  rw [offsetOf, position_at htext' hstart, Document.offset_at htext'] at hfirst
  rw [offsetOf, position_at htext hstop, Document.offset_at htext] at hlast
  cases hfirst
  cases hlast
  rw [List.length_append]
  omega

namespace Setting
variable {st : Setting} {p q : Progress} {w : Work} {l m : Link} {node : Node} {kind : String}

/-- The ends of a link are the offsets of its node's ends. -/
theorem linkOf_ends {t : Target} (h : st.linkOf node t kind = .ok l) :
    st.source.offsetOf node.start = .ok l.start ∧ st.source.offsetOf node.stop = .ok l.stop := by
  have hspan : st.linkOf node t kind = do
      let first ← st.source.offsetOf node.start
      let last ← st.source.offsetOf node.stop
      return {
        start := first, stop := last, line := (st.source.startPosition node).line
        column := (st.source.startPosition node).column
        archive := t.archive, name := t.name, anchor := t.anchor, kind } := by
    simp only [linkOf, OffsetIndex.span, bind_assoc, pure_bind]
    rfl
  rw [hspan] at h
  cases hfirst : st.source.offsetOf node.start with
  | error why =>
    rw [hfirst] at h
    cases h
  | ok first =>
    cases hlast : st.source.offsetOf node.stop with
    | error why =>
      rw [hfirst, hlast] at h
      cases h
    | ok last =>
      rw [hfirst, hlast] at h
      cases h
      exact ⟨rfl, rfl⟩

/-- The link stands at a node of the tree. -/
def Anchored (st : Setting) (l : Link) : Prop :=
  ∃ node t kind, node.Within st.source.root ∧ st.linkOf node t kind = .ok l

theorem Anchored.tidy (hroot : st.source.root.LaidOut st.source.document.text) (hl : st.Anchored l)
    (hm : st.Anchored m) : l.Tidy m := by
  obtain ⟨a, _, _, ha, hla⟩ := hl
  obtain ⟨b, _, _, hb, hmb⟩ := hm
  obtain ⟨hlstart, hlstop⟩ := linkOf_ends hla
  obtain ⟨hmstart, hmstop⟩ := linkOf_ends hmb
  cases hroot.within ha with
  | node astart astop _ _ _ =>
    cases hroot.within hb with
    | node bstart bstop _ _ _ =>
      rcases hroot.tidy ha hb with ⟨h, h'⟩ | ⟨h, h'⟩ | h | h
      · exact .inl ⟨Source.offsetOf_mono bstart astart h hmstart hlstart,
          Source.offsetOf_mono astop bstop h' hlstop hmstop⟩
      · exact .inr (.inl ⟨Source.offsetOf_mono astart bstart h hlstart hmstart,
          Source.offsetOf_mono bstop astop h' hmstop hlstop⟩)
      · exact .inr (.inr (.inl (Source.offsetOf_mono astop bstart h hlstop hmstart)))
      · exact .inr (.inr (.inr (Source.offsetOf_mono bstop astart h hmstop hlstart)))

/-- All links so far stand at nodes of the tree. -/
def AllAnchored (st : Setting) (p : Progress) : Prop :=
  ∀ l ∈ p.links, st.Anchored l

theorem AllAnchored.recorded (h : st.AllAnchored p) (hnode : node.Within st.source.root)
    (kind : String) (res : Resolution) : st.AllAnchored (st.recorded p node kind res) := by
  intro l hl
  rw [recorded_links] at hl
  rcases List.mem_append.mp hl with hl | hl
  · exact h l hl
  · obtain ⟨t, _, hlink⟩ := mem_linksFor.mp hl
    exact ⟨node, t, kind, hnode, hlink⟩

/-- The name of an imported class stands below a top-level node. -/
theorem import_within {d : Import} (h : d ∈ (ImportTable.ofSource st.source).declarations) :
    d.node.Within st.source.root := by
  simp only [ImportTable.ofSource, List.mem_filterMap] at h
  obtain ⟨declaration, hmem, hd⟩ := h
  have htop : declaration ∈ st.source.root.children := (List.mem_filter.mp hmem).1
  unfold Import.ofNode? at hd
  obtain ⟨_, _, hd⟩ := Option.bind_eq_some_iff.mp hd
  obtain ⟨name, hname, hd⟩ := Option.bind_eq_some_iff.mp hd
  rw [← Option.some.inj hd]
  have hchild : name ∈ declaration.children :=
    (List.mem_filter.mp (List.mem_of_find?_eq_some hname)).1
  exact .under htop (.under hchild (.self name))

theorem perform_anchored (h : st.AllAnchored p)
    (hw : ∀ parent n, w = .enter parent n → n.Within st.source.root)
    (hq : (st.perform w p).Yields q) : st.AllAnchored q := by
  rcases perform_cases hq with ⟨_, _, _, rfl⟩ | ⟨_, _, _, _, rfl⟩ | ⟨e, he, _, hq⟩
  · exact h
  · exact h
  have hnode : e.node.Within st.source.root := hw _ _ he
  rcases enter_cases hq with ⟨_, ht⟩ | ⟨_, hc⟩ | rfl
  · rcases linkType_yields ht with ⟨_, rfl⟩ | ⟨name, _, rfl⟩
    · exact h
    · exact h.recorded hnode "type" _
  · rcases linkCall_yields hc with ⟨_, rfl⟩ | ⟨nameNode, outcome, calls, hname, _, hq⟩
    · exact h
    have hchild : nameNode.Within st.source.root := hnode.child (List.mem_of_find?_eq_some hname)
    rcases hq with ⟨res, _, rfl⟩ | ⟨crash, _, rfl⟩
    · exact AllAnchored.recorded (p := { p with calls }) h hchild "method" res
    · exact h
  · exact h

theorem performAll_anchored {work : List Work} (h : st.AllAnchored p)
    (hwork : ∀ parent n, .enter parent n ∈ work → n.Within st.source.root)
    (hq : (work.foldlM (fun p w => st.perform w p) p).Yields q) : st.AllAnchored q := by
  induction work generalizing p with
  | nil =>
    simp only [List.foldlM_nil, Inquiry.pure_eq, Inquiry.yields_done] at hq
    rw [hq]
    exact h
  | cons w work ih =>
    rw [List.foldlM_cons, Inquiry.yields_bind] at hq
    obtain ⟨r, hr, hq⟩ := hq
    refine ih (perform_anchored h ?_ hr) (fun parent n hn => hwork parent n (.tail w hn)) hq
    intro parent n hn
    exact hwork parent n (hn ▸ .head work)

theorem walkImports_anchored {ds : List Import} (h : st.AllAnchored p)
    (hds : ∀ d ∈ ds, d.node.Within st.source.root) (hq : (st.walkImports ds p).Yields q) :
    st.AllAnchored q := by
  induction ds generalizing p with
  | nil =>
    simp only [walkImports, Inquiry.pure_eq, Inquiry.yields_done] at hq
    rw [hq]
    exact h
  | cons d ds ih =>
    rw [walkImports, Inquiry.yields_bind] at hq
    obtain ⟨r, hr, hq⟩ := hq
    refine ih ?_ (fun d' hd' => hds d' (.tail d hd')) hq
    rw [linkImport_yields hr]
    split
    · exact h.recorded (hds d (.head ds)) "import" _
    · exact h

theorem importPass_anchored (himports : st.imports = ImportTable.ofSource st.source)
    (hp : st.importPass.Yields p) : st.AllAnchored p := by
  have hstart : st.AllAnchored {} := by
    intro l hl
    cases hl
  unfold importPass at hp
  split at hp
  · refine walkImports_anchored hstart ?_ hp
    intro d hd
    rw [himports] at hd
    exact import_within hd
  · rw [Inquiry.pure_eq, Inquiry.yields_done] at hp
    rw [hp]
    exact hstart

theorem resolve_anchored {cancelled : Nat → Bool} {stopped : Bool}
    (himports : st.imports = ImportTable.ofSource st.source)
    (h : (st.resolve cancelled).Yields (p, stopped)) : st.AllAnchored p := by
  rw [resolve_agenda, resolveBy, Inquiry.yields_bind] at h
  obtain ⟨start, hstart, h⟩ := h
  rw [Inquiry.yields_bind] at h
  obtain ⟨q, hq, h⟩ := h
  obtain ⟨rfl, _⟩ := Inquiry.yields_pair.mp h
  refine performAll_anchored (importPass_anchored himports hstart) ?_ hq
  intro parent n hn
  obtain ⟨c, hc, hn⟩ := List.mem_flatMap.mp hn
  have htop : c ∈ st.source.root.children :=
    (Node.uncancelled_prefix cancelled 0 st.source.root.children).subset hc
  exact .under htop (Node.within_of_mem_agenda hn)

/-- Clicks follow the innermost link.

Let the nodes of the tree be laid out as a parser does it: children inside their parent and one
behind the other, all between characters of the text. Then any two links of a pass, cancelled or
not, are nested or disjoint. A click at an offset follows no link exactly if none covers the offset,
and else the first of those links over it that lie inside all the others over it. -/
theorem clicks_follow_innermost_link (st : Setting)
    (himports : st.imports = ImportTable.ofSource st.source)
    (hroot : st.source.root.LaidOut st.source.document.text) (cancelled : Nat → Bool)
    (corpus : Corpus) :
    let table := ((st.resolve cancelled).run corpus).1.1.links
    (∀ l ∈ table, ∀ m ∈ table, l.Inside m ∨ m.Inside l ∨ l.Apart m) ∧
    ∀ offset, (table.at? offset = none ↔ ∀ l ∈ table, l.covers offset = false) ∧
      ∀ l i, table.at? offset = some (l, i) ↔ table.Innermost offset l i := by
  intro table
  have hanchored := resolve_anchored himports (Inquiry.run_yields (st.resolve cancelled) corpus)
  have htidy : ∀ l ∈ table, ∀ m ∈ table, l.Tidy m := fun l hl m hm =>
    (hanchored l hl).tidy hroot (hanchored m hm)
  exact ⟨htidy, fun offset => ⟨LinkTable.at_eq_none, fun l i => LinkTable.at_innermost htidy⟩⟩

/-- A member of a generic class, written with a letter outside ASCII. The whole is one link, and the
class and its argument are links inside it; between them a click follows the whole. -/
theorem clicks_follow_innermost_link_of_member :
    let map := Node.plain "type_identifier" 0 4 []
    let key := Node.plain "type_identifier" 5 8 []
    let arguments := Node.plain "type_arguments" 4 9 [key]
    let generic := Node.plain "generic_type" 0 9 [map, arguments]
    let entry := Node.plain "type_identifier" 10 15 []
    let member := Node.plain "scoped_type_identifier" 0 15 [generic, entry]
    let archive : Archive := {
      id := "demo.jar"
      entries := ⟨[("demo/Mäp.class", []), ("demo/Mäp$Entry.class", []), ("demo/Key.class", [])]⟩ }
    let st := ofText [archive] "Mäp<Key>.Entry" (.plain "program" 0 15 [member])
    let table := ((st.resolve fun _ => false).run st.corpus).1.1.links
    let whole : Link := ⟨0, 14, 1, 1, "demo.jar", "demo/Mäp$Entry", some "Entry", "type"⟩
    let outer : Link := ⟨0, 3, 1, 1, "demo.jar", "demo/Mäp", some "Mäp", "type"⟩
    let argument : Link := ⟨4, 7, 1, 5, "demo.jar", "demo/Key", some "Key", "type"⟩
    st.source.root.LaidOut st.source.document.text ∧ table = [whole, outer, argument] ∧
      table.at? 3 = some (whole, 0) ∧ table.at? 14 = none ∧ table.Innermost 2 outer 1 ∧
      table.Innermost 4 argument 2 := by
  intro map key arguments generic entry member archive st table whole outer argument
  have hat : ∀ k b, (Utf8.encode (st.source.document.text.take k)).length = b →
      IsBoundary st.source.document.text b := fun k b hb =>
    ⟨_, _, (List.take_append_drop k _).symm, hb.symm⟩
  have h0 := hat 0 0 (by decide)
  have h4 := hat 3 4 (by decide)
  have h5 := hat 4 5 (by decide)
  have h8 := hat 7 8 (by decide)
  have h9 := hat 8 9 (by decide)
  have h10 := hat 9 10 (by decide)
  have h15 := hat 14 15 (by decide)
  have hroot : st.source.root.LaidOut st.source.document.text := by
    have hmap : map.LaidOut st.source.document.text := .node h0 h4 nofun .nil nofun
    have hkey : key.LaidOut st.source.document.text := .node h5 h8 nofun .nil nofun
    have hentry : entry.LaidOut st.source.document.text := .node h10 h15 nofun .nil nofun
    have harguments : arguments.LaidOut st.source.document.text :=
      .node h4 h9 (by decide) (by decide) (List.forall_mem_singleton.mpr hkey)
    have hgeneric : generic.LaidOut st.source.document.text :=
      .node h0 h9 (by decide) (by decide) (by simp [generic, Node.plain, hmap, harguments])
    have hmember : member.LaidOut st.source.document.text :=
      .node h0 h15 (by decide) (by decide) (by simp [member, Node.plain, hgeneric, hentry])
    exact .node h0 h15 (by decide) (by decide) (List.forall_mem_singleton.mpr hmember)
  have htable : table = [whole, outer, argument] := by decide +kernel
  have hclick := (st.clicks_follow_innermost_link rfl hroot (fun _ => false) st.corpus).2
  refine ⟨hroot, htable, ?_, ?_, ((hclick 2).2 outer 1).mp ?_, ((hclick 4).2 argument 2).mp ?_⟩
  · rw [htable]
    decide
  · rw [htable]
    decide
  · change table.at? 2 = _
    rw [htable]
    decide
  · change table.at? 4 = _
    rw [htable]
    decide

end Setting
end SourceLinks
