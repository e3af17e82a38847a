import SourceLinks.Proofs.Agenda
import SourceLinks.Proofs.CallChains
import SourceLinks.Proofs.LinkRule

namespace SourceLinks

/-- A reference that a pass comes to, and what surrounds it there. -/
inductive Site where
  | imported (d : Import)
  | type (node : Node) (here : Surroundings)
  | call (node : Node) (here : Surroundings)

/-- What has come of a reference. A link of it stands at the node. -/
structure Finding where
  site : Site
  node : Node
  kind : String
  verdict : Verdict

/-- A way to resolve a call in its surroundings, with what is remembered. -/
abbrev CallRule := Surroundings → CallMemo → Node → Inquiry CallOutcome

/-- The same progress with other surroundings and another memo. -/
def Progress.placed (p : Progress) (here : Surroundings) (calls : CallMemo) : Progress :=
  { p with here, calls }

namespace CallRule

/-- What comes of a call by this rule. -/
def outcome (rule : CallRule) (answers : Answers) (here : Surroundings) (memo : CallMemo) (n : Node) :
    CallOutcome :=
  (rule here memo n).answered answers

end CallRule

/-- The reference that an item comes to. -/
def Work.site? (here : Surroundings) : Work → Option Site
  | .enter parent node =>
    match Role.under parent node.kind with
    | .typeReference => some (.type node here)
    | .methodCall => some (.call node here)
    | _ => none
  | .exit .. => none

namespace Setting
variable {st : Setting} {answers : Answers} {rule : CallRule} {p : Progress}

/-- What an item makes of the surroundings. -/
def moved (st : Setting) (here : Surroundings) : Work → Surroundings
  | .enter parent node =>
    if isSkipped (Role.under parent node.kind) then here else st.surround ⟨parent, node⟩ here
  | .exit scopes classes => ⟨here.scopes.leave scopes, here.classes.drop classes⟩

/-- The references that items come to, in these surroundings at first. -/
def sites (st : Setting) (here : Surroundings) : List Work → List Site
  | [] => []
  | w :: rest => (w.site? here).toList ++ st.sites (st.moved here w) rest

theorem sites_append (here : Surroundings) (a b : List Work) :
    st.sites here (a ++ b) = st.sites here a ++ st.sites (a.foldl st.moved here) b := by
  induction a generalizing here with
  | nil => rfl
  | cons w a ih => rw [List.cons_append, sites, sites, ih, List.append_assoc, List.foldl_cons]

/-- The imports that the pass links. -/
def importSites (st : Setting) : List Site :=
  if st.config.linkImports then
    (st.imports.declarations.filter Import.isSingleType).map .imported
  else []

/-- What comes of one reference if this comes of calls. A type that is no class and a call without a
name are passed over. -/
def finding? (st : Setting) (verdict : Surroundings → Node → Verdict) : Site → Option Finding
  | .imported d =>
    some ⟨.imported d, d.node, "import", .ok (st.probe (ClassName.nestedForms d.internal) none)⟩
  | .type node here =>
    (st.source.typeName? node).map fun name =>
      ⟨.type node here, node, "type", .ok (st.resolveType here name)⟩
  | .call node here =>
    (node.child? "name").map fun name => ⟨.call node here, name, "method", verdict here node⟩

/-- What comes of these references if this comes of calls. -/
def findings (st : Setting) (verdict : Surroundings → Node → Verdict) (sites : List Site) :
    List Finding :=
  sites.flatMap fun s => (st.finding? verdict s).toList

theorem findings_append (verdict : Surroundings → Node → Verdict) (a b : List Site) :
    st.findings verdict (a ++ b) = st.findings verdict a ++ st.findings verdict b :=
  List.flatMap_append

theorem findings_congr {verdict verdict' : Surroundings → Node → Verdict} {sites : List Site}
    (h : ∀ n here, .call n here ∈ sites → verdict here n = verdict' here n) :
    st.findings verdict sites = st.findings verdict' sites := by
  refine List.flatMap_congr fun s hs => ?_
  cases s with
  | call n here => simp only [finding?, h n here hs]
  | _ => rfl

theorem findings_calls_congr {verdict verdict' : Surroundings → Node → Verdict} {here : Surroundings}
    {calls : List Node} (h : ∀ x ∈ calls, verdict here x = verdict' here x) :
    st.findings verdict (calls.map (.call · here)) =
      st.findings verdict' (calls.map (.call · here)) := by
  refine findings_congr fun x there hx => ?_
  obtain ⟨y, hy, heq⟩ := List.mem_map.mp hx
  cases heq
  exact h x hy

/-- What comes of one reference where calls are resolved by this rule, and what is remembered then. -/
def findAt (st : Setting) (answers : Answers) (rule : CallRule) (memo : CallMemo) :
    Site → Option Finding × CallMemo
  | .call node here =>
    match node.child? "name" with
    | none => (none, memo)
    | some name =>
      let outcome := rule.outcome answers here memo node
      (some ⟨.call node here, name, "method", outcome.1⟩, outcome.2)
  | s => (st.finding? (st.unlimited answers) s, memo)

/-- What comes of one reference after another. -/
def survey (st : Setting) (answers : Answers) (rule : CallRule) (memo : CallMemo) :
    List Site → List Finding × CallMemo
  | [] => ([], memo)
  | s :: rest =>
    let found := st.findAt answers rule memo s
    let others := st.survey answers rule found.2 rest
    (found.1.toList ++ others.1, others.2)

theorem survey_append (memo : CallMemo) (a b : List Site) :
    st.survey answers rule memo (a ++ b) =
      ((st.survey answers rule memo a).1 ++
          (st.survey answers rule (st.survey answers rule memo a).2 b).1,
        (st.survey answers rule (st.survey answers rule memo a).2 b).2) := by
  induction a generalizing memo with
  | nil => rfl
  | cons s a ih => simp only [List.cons_append, survey, ih, List.append_assoc]

/-- Takes down what has come of a reference. -/
def record (st : Setting) (p : Progress) (f : Finding) : Progress :=
  match f.verdict with
  | .ok res => st.recorded p f.node f.kind res
  | .error crash => p.countMishap (.crash crash)

/-- The links that come of a reference. -/
def linksAt (st : Setting) (f : Finding) : List Link :=
  match f.verdict with
  | .ok res => st.linksFor f.node f.kind res
  | .error _ => []

theorem record_links (p : Progress) (found : List Finding) :
    (found.foldl st.record p).links = p.links ++ found.flatMap st.linksAt := by
  induction found generalizing p with
  | nil => simp
  | cons f found ih =>
    have hf : (st.record p f).links = p.links ++ st.linksAt f := by
      unfold record linksAt
      split
      · exact recorded_links ..
      · exact (List.append_nil _).symm
    rw [List.foldl_cons, ih, hf, List.flatMap_cons, List.append_assoc]

theorem recorded_placed (p : Progress) (node : Node) (kind : String) (res : Resolution)
    (here : Surroundings) (calls : CallMemo) :
    st.recorded (p.placed here calls) node kind res =
      (st.recorded p node kind res).placed here calls := by
  cases res with
  | resolved target =>
    simp only [recorded]
    split <;> rfl
  | _ => rfl

/-- What is taken down has nothing to do with the surroundings and the memo then. -/
theorem record_placed (p : Progress) (found : List Finding) (here : Surroundings) (calls : CallMemo) :
    found.foldl st.record (p.placed here calls) = (found.foldl st.record p).placed here calls := by
  induction found generalizing p with
  | nil => rfl
  | cons f found ih =>
    have hf : st.record (p.placed here calls) f = (st.record p f).placed here calls := by
      unfold record
      split
      · exact recorded_placed ..
      · rfl
    rw [List.foldl_cons, hf, ih, List.foldl_cons]

/-- Progress after these references, in the surroundings that are reached then. -/
def surveyed (st : Setting) (answers : Answers) (rule : CallRule) (p : Progress) (sites : List Site)
    (there : Surroundings) : Progress :=
  let found := st.survey answers rule p.calls sites
  (found.1.foldl st.record p).placed there found.2

theorem surveyed_surveyed (p : Progress) (a b : List Site) (here there : Surroundings) :
    st.surveyed answers rule (st.surveyed answers rule p a here) b there =
      st.surveyed answers rule p (a ++ b) there := by
  have hcalls : (st.surveyed answers rule p a here).calls = (st.survey answers rule p.calls a).2 := rfl
  rw [surveyed, hcalls, surveyed, record_placed, surveyed, survey_append, List.foldl_append]
  rfl

/-- Links a call that is resolved by this rule. -/
def linkCallBy (st : Setting) (rule : CallRule) (p : Progress) (node : Node) : Inquiry Progress :=
  match node.child? "name" with
  | none => return p
  | some name => do
    let (verdict, calls) ← rule p.here p.calls node
    match verdict with
    | .ok res => st.emit { p with calls } name "method" res
    | .error crash => st.mishap { p with calls } (.crash crash)

/-- Does one item. Calls are resolved by this rule, and all else is as ever. -/
def performBy (st : Setting) (rule : CallRule) : Work → Progress → Inquiry Progress
  | .enter parent node, p =>
    match Role.under parent node.kind with
    | .methodCall => st.linkCallBy rule p node
    | _ => st.perform (.enter parent node) p
  | .exit scopes classes, p => st.perform (.exit scopes classes) p

/-- How many calls deep the receiver of a call may be. -/
def limit (st : Setting) : Nat :=
  st.config.maxChainDepth.toNat

/-- The rule of a pass: a call that is remembered is not resolved again. -/
def remembering (st : Setting) : CallRule :=
  fun here => st.resolveCall here st.limit

/-- Every call is resolved from the start. -/
def forgetful (st : Setting) : CallRule :=
  fun here => st.resolveAfresh here st.limit

theorem performBy_remembering : st.performBy st.remembering = st.perform := by
  funext w p
  cases w with
  | exit scopes classes => rfl
  | enter parent node =>
    cases hr : Role.under parent node.kind <;> simp only [performBy, hr]
    simp only [perform, hr, enter]
    rfl

theorem linkCallBy_answered (node : Node) :
    (st.linkCallBy rule p node).answered answers =
      st.surveyed answers rule p [.call node p.here] p.here := by
  cases hname : node.child? "name" with
  | none =>
    simp only [linkCallBy, surveyed, survey, findAt, hname]
    rfl
  | some name =>
    simp only [linkCallBy, surveyed, survey, findAt, hname, Inquiry.answered_bind, CallRule.outcome]
    generalize (rule p.here p.calls node).answered answers = outcome
    obtain ⟨verdict, calls⟩ := outcome
    cases verdict with
    | ok res =>
      have hemit := emit_yields.mp (Inquiry.answered_yields
        (st.emit (p.placed p.here calls) name "method" res) answers)
      exact hemit.trans (recorded_placed ..)
    | error crash => exact mishap_yields.mp (Inquiry.answered_yields _ _)

theorem linkType_answered (rule : CallRule) (node : Node) :
    (st.linkType p node).answered answers =
      st.surveyed answers rule p [.type node p.here] p.here := by
  rcases linkType_yields (Inquiry.answered_yields (st.linkType p node) answers) with
    ⟨hname, hq⟩ | ⟨name, hname, hq⟩
  · rw [hq]
    simp only [surveyed, survey, findAt, finding?, hname]
    rfl
  · rw [hq]
    simp only [surveyed, survey, findAt, finding?, hname]
    exact recorded_placed p node "type" _ p.here p.calls

theorem moved_reference {parent : String} {node : Node}
    (hr : Role.under parent node.kind = .typeReference ∨ Role.under parent node.kind = .methodCall)
    (here : Surroundings) : st.moved here (.enter parent node) = here := by
  have hentered : isSkipped (Role.under parent node.kind) = false := by
    rcases hr with hr | hr <;> rw [hr] <;> rfl
  rw [moved, hentered]
  exact surround_reference (e := ⟨parent, node⟩) hr here

/-- An item without a reference does no more than move on. -/
theorem perform_moves {w : Work} (h : w.site? p.here = none) :
    (st.perform w p).answered answers = p.placed (st.moved p.here w) p.calls := by
  rcases perform_cases (Inquiry.answered_yields (st.perform w p) answers) with
    ⟨scopes, classes, rfl, hq⟩ | ⟨parent, n, rfl, hs, hq⟩ | ⟨e, rfl, he, hq⟩
  · exact hq
  · rw [hq, moved, if_pos hs]
    rfl
  · have hs : isSkipped (Role.under e.parent e.node.kind) = false := he
    rcases enter_cases hq with ⟨hr, _⟩ | ⟨hr, _⟩ | hq
    · have hunder : Role.under e.parent e.node.kind = .typeReference := hr
      simp [Work.site?, hunder] at h
    · have hunder : Role.under e.parent e.node.kind = .methodCall := hr
      simp [Work.site?, hunder] at h
    · rw [hq, moved, if_neg (by simp [hs])]
      rfl

/-- An item finds what there is at its reference, and moves on. -/
theorem performBy_answered (w : Work) (p : Progress) :
    (st.performBy rule w p).answered answers =
      st.surveyed answers rule p (w.site? p.here).toList (st.moved p.here w) := by
  cases w with
  | exit scopes classes => rfl
  | enter parent node =>
    cases hr : Role.under parent node.kind with
    | methodCall =>
      rw [moved_reference (.inr hr)]
      simp only [performBy, Work.site?, hr]
      exact linkCallBy_answered node
    | typeReference =>
      rw [moved_reference (.inl hr)]
      simp only [performBy, perform, enter, Work.site?, hr]
      exact linkType_answered rule node
    | _ =>
      have hsite : Work.site? p.here (.enter parent node) = none := by simp only [Work.site?, hr]
      simp only [performBy, hr, perform_moves hsite, hsite]
      rfl

/-- So do items one after another. -/
theorem performAll_answered (work : List Work) (p : Progress) :
    (work.foldlM (fun p w => st.performBy rule w p) p).answered answers =
      st.surveyed answers rule p (st.sites p.here work) (work.foldl st.moved p.here) := by
  induction work generalizing p with
  | nil => rfl
  | cons w work ih =>
    rw [List.foldlM_cons, Inquiry.answered_bind, performBy_answered, ih]
    exact surveyed_surveyed ..

theorem linkImport_answered (rule : CallRule) (p : Progress) (d : Import) :
    (st.linkImport p d).answered answers =
      st.surveyed answers rule p (if d.isSingleType then [.imported d] else []) p.here := by
  rw [linkImport_yields (Inquiry.answered_yields (st.linkImport p d) answers)]
  split
  · generalize hres : st.probe (ClassName.nestedForms d.internal) none = res
    simp only [surveyed, survey, findAt, finding?, hres]
    exact recorded_placed p d.node "import" res p.here p.calls
  · rfl

theorem walkImports_answered (rule : CallRule) (ds : List Import) (p : Progress) :
    (st.walkImports ds p).answered answers =
      st.surveyed answers rule p ((ds.filter Import.isSingleType).map .imported) p.here := by
  induction ds generalizing p with
  | nil => rfl
  | cons d ds ih =>
    have hsites : ((d :: ds).filter Import.isSingleType).map Site.imported =
        (if d.isSingleType then [.imported d] else []) ++
          (ds.filter Import.isSingleType).map .imported := by
      cases hd : d.isSingleType <;> simp [hd]
    rw [walkImports, Inquiry.answered_bind, linkImport_answered rule, ih, hsites]
    exact surveyed_surveyed ..

theorem importPass_answered (rule : CallRule) :
    st.importPass.answered answers = st.surveyed answers rule {} st.importSites {} := by
  unfold importPass importSites
  split
  · exact walkImports_answered rule _ {}
  · rfl

/-- All references of a pass, or those that come before it is cancelled. -/
def passSites (st : Setting) (cancelled : Nat → Bool) : List Site :=
  st.importSites ++ st.sites {} (st.agenda cancelled)

/-- What a pass finds, reference by reference. -/
def found (st : Setting) (answers : Answers) (rule : CallRule) (cancelled : Nat → Bool) :
    List Finding :=
  (st.survey answers rule [] (st.passSites cancelled)).1

/-- A pass takes down what it finds. -/
theorem resolveBy_answered (st : Setting) (answers : Answers) (rule : CallRule)
    (cancelled : Nat → Bool) :
    ∃ here calls, (st.resolveBy (st.performBy rule) cancelled).answered answers =
      (((st.found answers rule cancelled).foldl st.record {}).placed here calls, st.stops cancelled) := by
  have hpass : (st.resolveBy (st.performBy rule) cancelled).answered answers =
      (st.surveyed answers rule {} (st.passSites cancelled) ((st.agenda cancelled).foldl st.moved {}),
        st.stops cancelled) := by
    rw [resolveBy, Inquiry.answered_bind, Inquiry.answered_bind, importPass_answered rule,
      performAll_answered, surveyed_surveyed]
    rfl
  exact ⟨_, _, hpass⟩

theorem resolve_eq (cancelled : Nat → Bool) :
    st.resolve cancelled = st.resolveBy (st.performBy st.remembering) cancelled := by
  rw [resolve_agenda, performBy_remembering]

/-- So does the pass over a corpus. -/
theorem resolve_run (st : Setting) (cancelled : Nat → Bool) (corpus : Corpus) :
    ∃ here calls, ((st.resolve cancelled).run corpus).1 =
      (((st.found corpus.answers st.remembering cancelled).foldl st.record {}).placed here calls,
        st.stops cancelled) := by
  rw [resolve_eq, Inquiry.run_answered]
  exact st.resolveBy_answered corpus.answers st.remembering cancelled

end Setting
end SourceLinks
