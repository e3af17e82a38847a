import SourceLinks.Proofs.Entering
import SourceLinks.Proofs.Targets

namespace SourceLinks.Setting
variable {st : Setting} {work work' done : List Work} {w : Work} {p q r : Progress}
variable {node : Node} {kind : String} {res : Resolution} {t : Target} {l : Link}

/-- Both ends of the node are positions of the document. -/
def InRange (st : Setting) (node : Node) : Prop :=
  ∃ span, st.source.document.offsetIndex.span (st.source.startPosition node)
    (st.source.stopPosition node) = .ok span

theorem linkOf_ok (h : st.InRange node) (t : Target) (kind : String) :
    ∃ l, st.linkOf node t kind = .ok l := by
  obtain ⟨⟨first, last⟩, hspan⟩ := h
  simp only [linkOf, hspan]
  exact ⟨_, rfl⟩

/-- A link has its target and its kind, wherever it stands. -/
theorem linkOf_eq (h : st.linkOf node t kind = .ok l) :
    ∃ start stop line column, l = ⟨start, stop, line, column, t.archive, t.name, t.anchor, kind⟩ := by
  unfold linkOf at h
  cases hspan : st.source.document.offsetIndex.span (st.source.startPosition node)
      (st.source.stopPosition node) with
  | error why =>
    simp only [hspan] at h
    cases h
  | ok span =>
    simp only [hspan] at h
    cases h
    exact ⟨_, _, _, _, rfl⟩

/-- A link opens its target. -/
theorem linkOf_target (h : st.linkOf node t kind = .ok l) :
    l.name = t.name ∧ l.archive = t.archive := by
  obtain ⟨_, _, _, _, rfl⟩ := linkOf_eq h
  exact ⟨rfl, rfl⟩

/-- The links that recording an outcome adds. -/
def linksFor (st : Setting) (node : Node) (kind : String) : Resolution → List Link
  | .resolved target => (st.linkOf node target kind).toOption.toList
  | _ => []

theorem mem_linksFor :
    l ∈ st.linksFor node kind res ↔ ∃ t, res = .resolved t ∧ st.linkOf node t kind = .ok l := by
  cases res with
  | resolved target =>
    simp only [linksFor, Option.mem_toList, Resolution.resolved.injEq]
    cases hl : st.linkOf node target kind with
    | ok link =>
      constructor
      · intro h
        cases h
        exact ⟨target, rfl, hl⟩
      · intro h
        obtain ⟨_, rfl, h⟩ := h
        cases hl.symm.trans h
        rfl
    | error why =>
      constructor
      · intro h
        cases h
      · intro h
        obtain ⟨_, rfl, h⟩ := h
        cases hl.symm.trans h
  | _ => simp [linksFor]

theorem recorded_links (st : Setting) (p : Progress) (node : Node) (kind : String)
    (res : Resolution) :
    (st.recorded p node kind res).links = p.links ++ st.linksFor node kind res := by
  cases res with
  | resolved target =>
    simp only [recorded, linksFor]
    cases st.linkOf node target kind with
    | ok link => rfl
    | error why => exact (List.append_nil _).symm
  | _ => exact (List.append_nil _).symm

theorem recorded_calls (st : Setting) (p : Progress) (node : Node) (kind : String)
    (res : Resolution) : (st.recorded p node kind res).calls = p.calls := by
  cases res with
  | resolved target =>
    simp only [recorded]
    split <;> rfl
  | _ => rfl

/-- Nothing that the pass has found or remembers is made up. -/
structure Sound (st : Setting) (p : Progress) : Prop where
  links : ∀ l ∈ p.links, l.name ≠ "" ∧ st.locate? l.name = some l.archive
  calls : st.HonestMemo p.calls

theorem Sound.start : st.Sound {} := by
  constructor
  · intro l hl
    cases hl
  · intro e he
    cases he

/-- One step further: no link is taken back, and nothing is made up that was not before. -/
structure Advances (st : Setting) (p q : Progress) : Prop where
  grows : p.links <+: q.links
  sound : st.Sound p → st.Sound q

/-- What changes neither the links nor the memo. -/
theorem Advances.of_same (hl : q.links = p.links) (hc : q.calls = p.calls) : st.Advances p q := by
  refine ⟨by simp [hl], ?_⟩
  intro h
  exact ⟨by simpa only [hl] using h.links, by simpa only [hc] using h.calls⟩

theorem Advances.recorded (h : st.Advances p q) (hr : st.Sound p → st.Honest res) (node : Node)
    (kind : String) : st.Advances p (st.recorded q node kind res) := by
  constructor
  · rw [recorded_links]
    exact h.grows.trans (List.prefix_append _ _)
  · intro hp
    have hq := h.sound hp
    constructor
    · intro l hl
      rw [recorded_links] at hl
      rcases List.mem_append.mp hl with hl | hl
      · exact hq.links l hl
      · obtain ⟨t, ht, hlink⟩ := mem_linksFor.mp hl
        obtain ⟨hname, harchive⟩ := linkOf_target hlink
        have hfound := hr hp t ht
        rw [hname, harchive]
        exact ⟨hfound.named, hfound.located⟩
    · rw [recorded_calls]
      exact hq.calls

theorem linkImport_advances {d : Import} (hq : (st.linkImport p d).Yields q) : st.Advances p q := by
  rw [linkImport_yields hq]
  split
  · exact (Advances.of_same rfl rfl).recorded (fun _ => probe_honest _ _) _ _
  · exact .of_same rfl rfl

theorem linkType_advances (hq : (st.linkType p node).Yields q) : st.Advances p q := by
  rcases linkType_yields hq with ⟨_, rfl⟩ | ⟨name, _, rfl⟩
  · exact .of_same rfl rfl
  · exact (Advances.of_same rfl rfl).recorded (fun _ => resolveType_honest _ _) _ _

/-- The memo is passed on from call to call, so a call is as sound as what is remembered. -/
theorem linkCall_advances (hq : (st.linkCall p node).Yields q) : st.Advances p q := by
  rcases linkCall_yields hq with ⟨_, rfl⟩ | ⟨nameNode, outcome, calls, _, hcall, hq⟩
  · exact .of_same rfl rfl
  have hhonest : st.Sound p → st.HonestOutcome outcome ∧ st.HonestMemo calls := fun hp =>
    resolveCall_honest _ _ _ _ _ _ hp.calls hcall
  have hmemo : st.Advances p { p with calls } :=
    ⟨List.prefix_refl _, fun hp => ⟨hp.links, (hhonest hp).2⟩⟩
  rcases hq with ⟨res, rfl, rfl⟩ | ⟨crash, _, rfl⟩
  · exact hmemo.recorded (fun hp => (hhonest hp).1 res rfl) _ _
  · exact ⟨hmemo.grows, fun hp => ⟨(hmemo.sound hp).links, (hmemo.sound hp).calls⟩⟩

theorem perform_advances (hq : (st.perform w p).Yields q) : st.Advances p q := by
  rcases perform_cases hq with ⟨_, _, _, rfl⟩ | ⟨_, _, _, _, rfl⟩ | ⟨e, _, _, hq⟩
  · exact .of_same rfl rfl
  · exact .of_same rfl rfl
  rcases enter_cases hq with ⟨_, ht⟩ | ⟨_, hc⟩ | rfl
  · exact linkType_advances ht
  · exact linkCall_advances hc
  · exact .of_same rfl rfl

/-- Wherever a pass stands, cancelled or not, it has made nothing up. -/
theorem Standing.sound (h : st.Standing done work p) : st.Sound p := by
  apply h.invariant
  · intro p hp
    exact importPass_invariant (fun _ _ _ h hq => (linkImport_advances hq).sound h) hp Sound.start
  · intro w p q hp hq
    exact (perform_advances hq).sound hp

/-- No link is ever taken back. -/
theorem Turns.links_grow (h : st.Turns work p done work' q) : p.links <+: q.links := by
  refine h.invariant (P := fun r => p.links <+: r.links) ?_ (List.prefix_refl _)
  intro w a b ha hb
  exact ha.trans (perform_advances hb).grows

/-- These are the links of a reference that stands at this node: none but links of the node, at most
one, and, if the node lies in the document, to exactly the classes that fit. -/
structure LinksOf (st : Setting) (node : Node) (kind : String) (Fits : String → Prop)
    (links : List Link) : Prop where
  stand : ∀ l ∈ links, ∃ t, st.linkOf node t kind = .ok l
  single : links.length ≤ 1
  fit : st.InRange node → ∀ c, (∃ l ∈ links, l.name = c) ↔ Fits c

theorem linksFor_stand (hl : l ∈ st.linksFor node kind res) : ∃ t, st.linkOf node t kind = .ok l := by
  obtain ⟨t, _, hlink⟩ := mem_linksFor.mp hl
  exact ⟨t, hlink⟩

theorem linksFor_single (st : Setting) (node : Node) (kind : String) (res : Resolution) :
    (st.linksFor node kind res).length ≤ 1 := by
  cases res with
  | resolved target => exact Option.length_toList_le
  | _ => exact Nat.zero_le 1

theorem linksFor_linksOf {Fits : String → Prop}
    (hfits : ∀ c, (∃ t, res = .resolved t ∧ t.name = c) ↔ Fits c) :
    st.LinksOf node kind Fits (st.linksFor node kind res) := by
  refine ⟨fun l hl => linksFor_stand hl, linksFor_single .., fun hrange c => ?_⟩
  rw [← hfits c]
  constructor
  · intro h
    obtain ⟨l, hl, hc⟩ := h
    obtain ⟨t, ht, hlink⟩ := mem_linksFor.mp hl
    exact ⟨t, ht, (linkOf_target hlink).1.symm.trans hc⟩
  · intro h
    obtain ⟨t, ht, hc⟩ := h
    obtain ⟨l, hlink⟩ := linkOf_ok hrange t kind
    exact ⟨l, mem_linksFor.mpr ⟨t, ht, hlink⟩, (linkOf_target hlink).1.trans hc⟩

/-- From `p` to `q` the table has grown by links of this node, to exactly the classes that fit. -/
def Adds (st : Setting) (p q : Progress) (node : Node) (kind : String) (Fits : String → Prop) :
    Prop :=
  ∃ new, q.links = p.links ++ new ∧ (∀ l ∈ new, ∃ t, st.linkOf node t kind = .ok l) ∧
    ∀ c, (∃ l ∈ new, l.name = c) ↔ Fits c

theorem recorded_adds {Fits : String → Prop} (hrange : st.InRange node)
    (hfits : ∀ c, (∃ t, res = .resolved t ∧ t.name = c) ↔ Fits c) :
    st.Adds p (st.recorded p node kind res) node kind Fits :=
  have hlinks : st.LinksOf node kind Fits (st.linksFor node kind res) := linksFor_linksOf hfits
  ⟨st.linksFor node kind res, recorded_links .., hlinks.stand, hlinks.fit hrange⟩

theorem linkType_adds {name : TypeName} (hname : st.source.typeName? node = some name)
    (hrange : st.InRange node) (hq : (st.linkType p node).Yields q) :
    st.Adds p q node "type" (st.StandsFor p.here name) := by
  rcases linkType_yields hq with ⟨hnone, _⟩ | ⟨name', hsome, rfl⟩
  · cases hnone.symm.trans hname
  · cases hsome.symm.trans hname
    exact recorded_adds hrange fun c => resolveType_names

end SourceLinks.Setting
