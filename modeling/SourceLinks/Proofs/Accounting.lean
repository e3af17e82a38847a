import Mathlib.Data.List.Forall2
import SourceLinks.Proofs.Agenda
import SourceLinks.Proofs.LinkRule
import SourceLinks.Proofs.Traversal

namespace SourceLinks

/-- What a reference can come to. -/
inductive Outcome where
  | linked (link : Link)
  | unresolved
  | ambiguous
  | unsupported
  | outOfRange
  | crashed
deriving Repr, DecidableEq

def Outcome.link? : Outcome → Option Link
  | .linked link => some link
  | _ => none

/-- A place where a link may stand, and the kind of the link. -/
structure Reference where
  node : Node
  kind : String

namespace Tally

/-- One reference more, which came to this. -/
def count (t : Tally) : Outcome → Tally
  | .linked _ => { t with links := t.links + 1 }
  | .unresolved => { t with unresolved := t.unresolved + 1 }
  | .ambiguous => { t with ambiguous := t.ambiguous + 1 }
  | .unsupported => { t with unsupported := t.unsupported + 1 }
  | .outOfRange => { t with outOfRange := t.outOfRange + 1 }
  | .crashed => { t with errors := t.errors + 1 }

/-- The references of all outcomes together. -/
def total (t : Tally) : Nat :=
  t.links + t.unresolved + t.ambiguous + t.unsupported + t.outOfRange + t.errors

theorem total_count (t : Tally) (o : Outcome) : (t.count o).total = t.total + 1 := by
  cases o <;> simp only [count, total] <;> omega

theorem total_counts (t : Tally) (outcomes : List Outcome) :
    (outcomes.foldl count t).total = t.total + outcomes.length := by
  induction outcomes generalizing t with
  | nil => rfl
  | cons o outcomes ih =>
    rw [List.foldl_cons, ih, total_count, List.length_cons]
    omega

theorem links_counts (t : Tally) (outcomes : List Outcome) :
    (outcomes.foldl count t).links = t.links + (outcomes.filterMap Outcome.link?).length := by
  induction outcomes generalizing t with
  | nil => rfl
  | cons o outcomes ih =>
    rw [List.foldl_cons, ih]
    cases o <;> simp only [count, Outcome.link?, List.filterMap_cons, List.length_cons]
    omega

end Tally

namespace Progress
variable {p q r : Progress}

/-- From `p` to `q` references came to these outcomes, and each was counted once. -/
structure Accounts (p q : Progress) (outcomes : List Outcome) : Prop where
  links : q.links = p.links ++ outcomes.filterMap Outcome.link?
  tally : q.tally = outcomes.foldl Tally.count p.tally

theorem Accounts.of_same (hl : q.links = p.links) (ht : q.tally = p.tally) : p.Accounts q [] :=
  ⟨by simp [hl], ht⟩

theorem Accounts.trans {first second : List Outcome} (h : p.Accounts q first)
    (h' : q.Accounts r second) : p.Accounts r (first ++ second) := by
  constructor
  · rw [h'.links, h.links, List.filterMap_append, List.append_assoc]
  · rw [h'.tally, h.tally, List.foldl_append]

end Progress

/-- Only the import of one class is a reference. -/
def Import.reference? (d : Import) : Option Reference :=
  if d.isSingleType then some ⟨d.node, "import"⟩ else none

/-- A type that is no class and a call without a name are no references. -/
def Source.reference? (s : Source) (e : Entry) : Option Reference :=
  match e.role with
  | .typeReference => (s.typeName? e.node).map fun _ => ⟨e.node, "type"⟩
  | .methodCall => (e.node.child? "name").map fun name => ⟨name, "method"⟩
  | _ => none

def Source.isNamedType (s : Source) (e : Entry) : Bool :=
  e.role == .typeReference && (s.typeName? e.node).isSome

def Entry.isNamedCall (e : Entry) : Bool :=
  e.role == .methodCall && (e.node.child? "name").isSome

theorem Import.length_references (ds : List Import) :
    (ds.filterMap Import.reference?).length = ds.countP Import.isSingleType := by
  induction ds with
  | nil => rfl
  | cons d ds ih =>
    cases hd : d.isSingleType <;>
      simp [Import.reference?, hd, ih]

theorem Source.length_references (s : Source) (entries : List Entry) :
    (entries.filterMap s.reference?).length =
      entries.countP s.isNamedType + entries.countP Entry.isNamedCall := by
  induction entries with
  | nil => rfl
  | cons e entries ih =>
    have he : (s.reference? e).toList.length =
        (if s.isNamedType e then 1 else 0) + if e.isNamedCall then 1 else 0 := by
      unfold Source.reference? Source.isNamedType Entry.isNamedCall
      cases e.role with
      | typeReference => cases s.typeName? e.node <;> rfl
      | methodCall => cases e.node.child? "name" <;> rfl
      | _ => rfl
    rw [List.countP_cons, List.countP_cons, List.filterMap_cons]
    cases hr : s.reference? e with
    | none =>
      rw [hr, Option.toList_none, List.length_nil] at he
      simp only [ih]
      omega
    | some r =>
      rw [hr, Option.toList_some, List.length_singleton] at he
      simp only [List.length_cons, ih]
      omega

namespace Setting
variable {st : Setting} {work work' done : List Work} {w : Work} {p q : Progress}

/-- A link that came of a reference stands where the reference does. -/
def Fits (st : Setting) (r : Reference) (o : Outcome) : Prop :=
  ∀ link, o = .linked link → ∃ t, st.linkOf r.node t r.kind = .ok link

/-- From `p` to `q` each of these references came to one outcome, and was counted for it. -/
def Settles (st : Setting) (refs : List Reference) (p q : Progress) : Prop :=
  ∃ outcomes, List.Forall₂ st.Fits refs outcomes ∧ p.Accounts q outcomes

theorem Settles.of_same (hl : q.links = p.links) (ht : q.tally = p.tally) : st.Settles [] p q :=
  ⟨[], .nil, .of_same hl ht⟩

theorem Settles.trans {first second : List Reference} {r : Progress} (h : st.Settles first p q)
    (h' : st.Settles second q r) : st.Settles (first ++ second) p r := by
  obtain ⟨outcomes, hfits, haccounts⟩ := h
  obtain ⟨outcomes', hfits', haccounts'⟩ := h'
  exact ⟨outcomes ++ outcomes', List.rel_append hfits hfits', haccounts.trans haccounts'⟩

/-- What a reference comes to that is resolved so. -/
def outcome (st : Setting) (node : Node) (kind : String) : Resolution → Outcome
  | .resolved target =>
    match st.linkOf node target kind with
    | .ok link => .linked link
    | .error _ => .outOfRange
  | .unresolved _ => .unresolved
  | .ambiguous _ => .ambiguous
  | .unsupported _ => .unsupported

theorem outcome_fits (st : Setting) (node : Node) (kind : String) (res : Resolution) :
    st.Fits ⟨node, kind⟩ (st.outcome node kind res) := by
  intro link h
  cases res with
  | resolved target =>
    cases hl : st.linkOf node target kind with
    | ok link' =>
      simp only [outcome, hl] at h
      cases h
      exact ⟨target, hl⟩
    | error why =>
      simp only [outcome, hl] at h
      cases h
  | _ => cases h

/-- To record an outcome is to count it, as a link or otherwise. -/
theorem recorded_accounts (st : Setting) (p : Progress) (node : Node) (kind : String)
    (res : Resolution) :
    p.Accounts (st.recorded p node kind res) [st.outcome node kind res] := by
  cases res with
  | resolved target =>
    cases hl : st.linkOf node target kind with
    | ok link =>
      simp only [recorded, outcome, hl]
      exact ⟨rfl, rfl⟩
    | error why =>
      simp only [recorded, outcome, hl]
      exact ⟨(List.append_nil _).symm, rfl⟩
  | _ => exact ⟨(List.append_nil _).symm, rfl⟩

theorem recorded_settles (st : Setting) (p : Progress) (node : Node) (kind : String)
    (res : Resolution) : st.Settles [⟨node, kind⟩] p (st.recorded p node kind res) :=
  ⟨_, .cons (st.outcome_fits node kind res) .nil, st.recorded_accounts p node kind res⟩

theorem linkImport_settles {d : Import} (h : (st.linkImport p d).Yields q) :
    st.Settles d.reference?.toList p q := by
  rw [linkImport_yields h, Import.reference?]
  split
  · exact recorded_settles ..
  · exact .of_same rfl rfl

theorem walkImports_settles {ds : List Import} (h : (st.walkImports ds p).Yields q) :
    st.Settles (ds.filterMap Import.reference?) p q := by
  induction ds generalizing p with
  | nil =>
    rw [walkImports, Inquiry.pure_eq, Inquiry.yields_done] at h
    subst h
    exact .of_same rfl rfl
  | cons d ds ih =>
    rw [walkImports, Inquiry.yields_bind] at h
    obtain ⟨m, hm, hq⟩ := h
    have hrefs : (d :: ds).filterMap Import.reference? =
        d.reference?.toList ++ ds.filterMap Import.reference? := by
      cases hd : d.reference? <;> simp [hd]
    rw [hrefs]
    exact (linkImport_settles hm).trans (ih hq)

theorem linkType_settles {node : Node} (h : (st.linkType p node).Yields q) :
    st.Settles ((st.source.typeName? node).map fun _ => ⟨node, "type"⟩).toList p q := by
  rcases linkType_yields h with ⟨hname, rfl⟩ | ⟨name, hname, rfl⟩
  · rw [hname]
    exact .of_same rfl rfl
  · rw [hname]
    exact recorded_settles ..

/-- A crash in the middle of a call counts once, however much of the chain was resolved by then. -/
theorem linkCall_settles {node : Node} (h : (st.linkCall p node).Yields q) :
    st.Settles ((node.child? "name").map fun name => ⟨name, "method"⟩).toList p q := by
  rcases linkCall_yields h with ⟨hname, rfl⟩ | ⟨name, outcome, calls, hname, _, hq⟩
  · rw [hname]
    exact .of_same rfl rfl
  rw [hname]
  rcases hq with ⟨res, _, rfl⟩ | ⟨crash, _, rfl⟩
  · have hmemo : st.Settles [] p { p with calls } := .of_same rfl rfl
    exact hmemo.trans (recorded_settles ..)
  · refine ⟨[.crashed], .cons ?_ .nil, (List.append_nil _).symm, rfl⟩
    rintro link ⟨⟩

/-- An item settles the reference that it enters, if it enters one. -/
theorem perform_settles (h : (st.perform w p).Yields q) :
    st.Settles (w.entry?.bind st.source.reference?).toList p q := by
  rcases perform_cases h with ⟨scopes, classes, rfl, rfl⟩ | ⟨parent, n, rfl, hs, rfl⟩ | ⟨e, rfl, he, hq⟩
  · exact .of_same rfl rfl
  · simp only [Work.entry?, hs, ↓reduceIte]
    exact .of_same rfl rfl
  · have hs : isSkipped (Role.under e.parent e.node.kind) = false := he
    simp only [Work.entry?, hs, Bool.false_eq_true, ↓reduceIte, Option.bind_some]
    cases hr : e.role with
    | typeReference =>
      rw [enter_typeReference hr] at hq
      simp only [Source.reference?, hr]
      exact linkType_settles hq
    | methodCall =>
      rw [enter_methodCall hr] at hq
      simp only [Source.reference?, hr]
      exact linkCall_settles hq
    | _ =>
      have hnone : st.source.reference? e = none := by simp only [Source.reference?, hr]
      rw [hnone]
      rcases enter_cases hq with ⟨ht, _⟩ | ⟨hc, _⟩ | rfl
      · cases hr.symm.trans ht
      · cases hr.symm.trans hc
      · exact .of_same rfl rfl

/-- So do turns, reference by reference. -/
theorem Turns.settles (h : st.Turns work p done work' q) :
    st.Settles ((Work.entered done).filterMap st.source.reference?) p q := by
  induction h with
  | start => exact .of_same rfl rfl
  | @turn done rest w q r _ hw ih =>
    have hrefs : w.entry?.toList.filterMap st.source.reference? =
        (w.entry?.bind st.source.reference?).toList := by
      cases w.entry? with
      | none => rfl
      | some e => cases he : st.source.reference? e <;> simp [he]
    rw [Work.entered_snoc, List.filterMap_append, hrefs]
    exact ih.trans (perform_settles hw)

/-- The nodes that a pass enters, or those that it enters before it is cancelled. -/
def entered (st : Setting) (cancelled : Nat → Bool) : List Entry :=
  (Node.uncancelled cancelled 0 st.source.root.children).flatMap (Node.entries st.source.root.kind)

/-- The imports that a pass attempts, if they are to be linked. -/
def importReferences (st : Setting) : List Reference :=
  if st.config.linkImports then st.imports.declarations.filterMap Import.reference? else []

/-- The references that a pass attempts: first the imports, then those that it enters. -/
def references (st : Setting) (cancelled : Nat → Bool) : List Reference :=
  st.importReferences ++ (st.entered cancelled).filterMap st.source.reference?

theorem length_references (st : Setting) (cancelled : Nat → Bool) :
    (st.references cancelled).length =
      (if st.config.linkImports then st.imports.declarations.countP Import.isSingleType else 0) +
        (st.entered cancelled).countP st.source.isNamedType +
        (st.entered cancelled).countP Entry.isNamedCall := by
  rw [references, importReferences, List.length_append, Source.length_references, Nat.add_assoc]
  split
  · rw [Import.length_references]
  · rfl

theorem importPass_settles (h : st.importPass.Yields p) :
    st.Settles st.importReferences {} p := by
  unfold importPass at h
  split at h
  · rename_i hon
    rw [importReferences, if_pos hon]
    exact walkImports_settles h
  · rename_i hoff
    rw [Inquiry.pure_eq, Inquiry.yields_done] at h
    subst h
    rw [importReferences, if_neg hoff]
    exact .of_same rfl rfl

/-- A walk of the top-level nodes enters all that those hold which come before it is cancelled. -/
theorem walkTop_entered {cancelled : Nat → Bool} {parent : String} {i : Nat} {nodes : List Node}
    {stopped : Bool} (h : (st.walkTop cancelled parent i nodes p).Yields (q, stopped)) :
    ∃ done work, st.Turns (nodes.map (.enter parent)) p done work q ∧
      Work.entered done = (Node.uncancelled cancelled i nodes).flatMap (Node.entries parent) := by
  induction nodes generalizing i p with
  | nil =>
    rw [walkTop, Inquiry.pure_eq, Inquiry.yields_done, Prod.mk.injEq] at h
    rw [h.1]
    exact ⟨[], _, .start, rfl⟩
  | cons c rest ih =>
    rw [walkTop] at h
    rw [Node.uncancelled]
    split at h
    · rename_i hc
      rw [Inquiry.pure_eq, Inquiry.yields_done, Prod.mk.injEq] at h
      rw [h.1, if_pos hc]
      exact ⟨[], _, .start, rfl⟩
    · rename_i hc
      rw [Inquiry.yields_bind] at h
      obtain ⟨m, hm, hq⟩ := h
      obtain ⟨first, hfirst⟩ := Turns.of_walk hm
      have hentered : Work.entered first = c.entries parent := by
        simpa [pending] using hfirst.entered_pending
      obtain ⟨done, work, ht, hdone⟩ := ih hq
      refine ⟨first ++ done, work, (hfirst.above (rest.map (.enter parent))).trans ht, ?_⟩
      rw [if_neg hc, List.flatMap_cons, ← hentered, ← hdone]
      exact List.filterMap_append

/-- Every reference is counted once, for what it came to.

Whatever the archives answer, a crash at any question included, and wherever the pass is cancelled:
each reference that the pass attempts comes to one outcome, in order, and the table and the tally
are those of the outcomes. So the table is as long as the tally says, and the counts add up to the
imports of one class, if they are linked, the type references that name a class and the calls that
have a name, among the nodes that the pass has entered. -/
theorem references_are_counted_once (st : Setting) (cancelled : Nat → Bool) :
    (∀ corpus, (st.resolve cancelled).Yields ((st.resolve cancelled).run corpus).1) ∧
    ∀ p stopped, (st.resolve cancelled).Yields (p, stopped) →
      (∃ done work, st.Standing done work p ∧ Work.entered done = st.entered cancelled) ∧
      (∃ outcomes, List.Forall₂ st.Fits (st.references cancelled) outcomes ∧
        p.links = outcomes.filterMap Outcome.link? ∧ p.tally = outcomes.foldl Tally.count {}) ∧
      p.tally.links = p.links.length ∧
      p.tally.links + p.tally.unresolved + p.tally.ambiguous + p.tally.unsupported +
          p.tally.outOfRange + p.tally.errors =
        (if st.config.linkImports then st.imports.declarations.countP Import.isSingleType else 0) +
          (st.entered cancelled).countP st.source.isNamedType +
          (st.entered cancelled).countP Entry.isNamedCall := by
  refine ⟨Inquiry.run_yields _, ?_⟩
  intro p stopped h
  rw [resolve, Inquiry.yields_bind] at h
  obtain ⟨start, hstart, hp⟩ := h
  obtain ⟨done, work, hturns, hdone⟩ := walkTop_entered hp
  have hentered : Work.entered done = st.entered cancelled := hdone
  have hsettles := (importPass_settles hstart).trans hturns.settles
  rw [hentered] at hsettles
  obtain ⟨outcomes, hfits, hlinks, htally⟩ := hsettles
  refine ⟨⟨done, work, ⟨start, hstart, hturns⟩, hentered⟩, ⟨outcomes, hfits, hlinks, htally⟩, ?_, ?_⟩
  · rw [hlinks, htally, Tally.links_counts]
    simp
  · have htotal : p.tally.total = outcomes.length := by
      rw [htally, Tally.total_counts]
      exact Nat.zero_add _
    rw [← length_references, references, hfits.length_eq]
    exact htotal

/-- A type reference that gets its link, one that reaches beyond the text, and a call for which the
reader of an archive crashes. -/
theorem references_are_counted_once_of_three :
    let map := Node.plain "type_identifier" 0 3 []
    let beyond := Node.plain "type_identifier" 0 99 []
    let call := Node.plain "method_invocation" 0 3
      [.mk "identifier" "object" true false 0 3 [], .mk "identifier" "name" true false 0 3 []]
    let lib : Archive :=
      { id := "lib.jar", entries := ⟨[("demo/Map.class", [])]⟩, reader := .crashing }
    let st := ofText [lib] "Map" (.plain "program" 0 3 [map, beyond, call])
    let p := ((st.resolve fun _ => false).run st.corpus).1.1
    p.tally = { links := 1, outOfRange := 1, errors := 1 } ∧ p.tally.links = p.links.length ∧
      p.tally.links + p.tally.unresolved + p.tally.ambiguous + p.tally.unsupported +
        p.tally.outOfRange + p.tally.errors = 0 + 2 + 1 := by
  intro map beyond call lib st p
  obtain ⟨hruns, hcounted⟩ := st.references_are_counted_once fun _ => false
  obtain ⟨_, _, hlinks, htotal⟩ := hcounted p _ (hruns st.corpus)
  exact ⟨by decide +kernel, hlinks, htotal⟩

end Setting
end SourceLinks
