import Mathlib.Data.Finset.Dedup
import SourceLinks.Proofs.Accounting
import SourceLinks.Proofs.Agreement

namespace SourceLinks

namespace ImportTable
variable {t t' : ImportTable}

/-- The names that are imported one by one, each with whether its import is static. -/
def singles (t : ImportTable) : Finset (String × Bool) :=
  ((t.declarations.filter fun d => !d.isWildcard).map fun d => (d.dotted, d.isStatic)).toFinset

theorem mem_singles {name : String} {isStatic : Bool} :
    (name, isStatic) ∈ t.singles ↔
      ∃ d ∈ t.declarations, d.isWildcard = false ∧ d.dotted = name ∧ d.isStatic = isStatic := by
  simp [singles, and_assoc]

/-- Where the imported names are among those of another table, so are the bindings. -/
theorem bindings_subset (h : t.singles ⊆ t'.singles) : t.bindings ⊆ t'.bindings := by
  intro b hb
  obtain ⟨d, hd, rfl⟩ := List.mem_map.mp hb
  obtain ⟨hd, hsingle⟩ := List.mem_filter.mp hd
  simp only [Import.isSingleType, Bool.and_eq_true, Bool.not_eq_true'] at hsingle
  obtain ⟨e, he, hwild, hname, hstatic⟩ := mem_singles.mp (h (mem_singles.mpr
    ⟨d, hd, hsingle.2, rfl, rfl⟩))
  refine List.mem_map.mpr ⟨e, List.mem_filter.mpr ⟨he, ?_⟩, ?_⟩
  · simp [Import.isSingleType, hwild, hstatic, hsingle.1]
  · simp only [Import.simple, Import.internal, hname]

theorem ownersOf_subset (h : t.singles ⊆ t'.singles) (member : String) :
    t.ownersOf member ⊆ t'.ownersOf member := by
  intro owner howner
  obtain ⟨d, hd, rfl⟩ := List.mem_map.mp howner
  simp only [List.mem_filter, Import.isSingleMember, Bool.and_eq_true, Bool.not_eq_true',
    beq_iff_eq] at hd
  obtain ⟨⟨hd, hmember, hsingle⟩, hsimple⟩ := hd
  obtain ⟨e, he, hwild, hname, hstatic⟩ := mem_singles.mp (h (mem_singles.mpr
    ⟨d, hd, hsingle, rfl, rfl⟩))
  have hsame : e.simple = d.simple := by simp only [Import.simple, hname]
  refine List.mem_map.mpr ⟨e, ?_, by simp only [Import.memberOwner, Import.internal, hname]⟩
  simp [he, Import.isSingleMember, hwild, hstatic, hmember, hsame, hsimple]

theorem mem_bindings_iff (h : t'.singles = t.singles) (b : ImportBinding) :
    b ∈ t'.bindings ↔ b ∈ t.bindings :=
  ⟨fun hb => bindings_subset h.subset hb, fun hb => bindings_subset h.symm.subset hb⟩

theorem mem_bindingsFor_iff (h : t'.singles = t.singles) (simple : String) (b : ImportBinding) :
    b ∈ t'.bindingsFor simple ↔ b ∈ t.bindingsFor simple := by
  simp only [bindingsFor, List.mem_filter, mem_bindings_iff h]

theorem mem_ownersOf_iff (h : t'.singles = t.singles) (member owner : String) :
    owner ∈ t'.ownersOf member ↔ owner ∈ t.ownersOf member :=
  ⟨fun ho => ownersOf_subset h.subset member ho, fun ho => ownersOf_subset h.symm.subset member ho⟩

end ImportTable

theorem isEmpty_of_mem_iff {α : Type} {a b : List α} (h : ∀ x, x ∈ a ↔ x ∈ b) :
    a.isEmpty = b.isEmpty := by
  rw [Bool.eq_iff_iff, List.isEmpty_iff, List.isEmpty_iff, List.eq_nil_iff_forall_not_mem,
    List.eq_nil_iff_forall_not_mem]
  simp only [h]

/-- A resolution less the reason and the candidates, which no link and no count depends on. -/
def Resolution.bare : Resolution → Resolution
  | .resolved target => .resolved target
  | .unresolved _ => .unresolved ""
  | .ambiguous _ => .ambiguous []
  | .unsupported _ => .unsupported ""

/-- A resolution, or what comes of trying on where nothing was found. -/
def Resolution.otherwise (res : Resolution) (next : String → Resolution) : Resolution :=
  match res with
  | .unresolved reason => next reason
  | res => res

theorem Resolution.otherwise_bare {res res' : Resolution} {next next' : String → Resolution}
    (h : res'.bare = res.bare) (hnext : ∀ reason reason', (next' reason').bare = (next reason).bare) :
    (res'.otherwise next').bare = (res.otherwise next).bare := by
  cases res <;> cases res' <;> first | exact h | exact hnext _ _ | cases h

namespace Verdict

def bare (verdict : Verdict) : Verdict :=
  verdict.map Resolution.bare

theorem bare_ok {res res' : Resolution} (h : res'.bare = res.bare) :
    bare (.ok res') = bare (.ok res) :=
  congrArg Except.ok h

end Verdict

namespace CallMemo

def bare (memo : CallMemo) : CallMemo :=
  memo.map fun known => (known.1, known.2.bare)

theorem lookup_bare (memo : CallMemo) (key : Nat × Nat) :
    (bare memo).lookup key = (memo.lookup key).map Resolution.bare := by
  induction memo with
  | nil => rfl
  | cons known memo ih =>
    obtain ⟨k, res⟩ := known
    simp only [bare, List.map_cons, List.lookup_cons] at ih ⊢
    cases key == k with
    | true => rfl
    | false => exact ih

end CallMemo

def CallOutcome.bare (outcome : CallOutcome) : CallOutcome :=
  (Verdict.bare outcome.1, CallMemo.bare outcome.2)

/-- The kind of a link that comes of a reference. -/
def Site.kind : Site → String
  | .imported _ => "import"
  | .type .. => "type"
  | .call .. => "method"

def Finding.bare (f : Finding) : Finding :=
  { f with verdict := Verdict.bare f.verdict }

namespace Setting
variable {st : Setting} {t : ImportTable} {answers : Answers} {here : Surroundings}

/-- The same pass with other imports. -/
def withImports (st : Setting) (t : ImportTable) : Setting :=
  { st with imports := t }

theorem alike_withImports (st : Setting) (t : ImportTable) : st.Alike (st.withImports t) :=
  ⟨rfl, fun _ => rfl, rfl⟩

/-- The order of candidates, and how often each stands there, matters to the log alone. -/
theorem probe_bare {names names' : List String} (h : ∀ n, n ∈ names' ↔ n ∈ names)
    (anchor : Option String) : (st.probe names' anchor).bare = (st.probe names anchor).bare := by
  have hperm : (st.hits names').Perm (st.hits names) := by
    rw [List.perm_ext_iff_of_nodup (nodup_hits st names') (nodup_hits st names)]
    rintro ⟨c, archive⟩
    rw [mem_hits, mem_hits, h]
  rw [probe_eq, probe_eq]
  cases hhits : st.hits names with
  | nil =>
    rw [hhits, List.perm_nil] at hperm
    rw [hperm]
    rfl
  | cons hit others =>
    cases others with
    | nil =>
      rw [hhits, List.perm_singleton] at hperm
      rw [hperm]
    | cons other others =>
      have hlen := hperm.length_eq
      rw [hhits] at hlen
      match hhits' : st.hits names' with
      | [] => simp [hhits'] at hlen
      | [_] => simp [hhits'] at hlen
      | _ :: _ :: _ => rfl

theorem mem_typeCandidates (h : t.singles = st.imports.singles) (name : TypeName) (c : String) :
    c ∈ (st.withImports t).typeCandidates name ↔ c ∈ st.typeCandidates name := by
  have hb := ImportTable.mem_bindings_iff h
  simp only [typeCandidates, withImports, mem_distinctNames, List.mem_append, List.mem_flatMap, hb]

theorem resolveType_eq (st : Setting) (here : Surroundings) (name : TypeName) :
    st.resolveType here name =
      (st.probe (st.typeCandidates name) (some name.simple)).otherwise fun reason =>
        if (st.imports.bindingsFor name.root).isEmpty then
          st.probe (st.secondaryCandidates here name) (some name.simple)
        else .unresolved reason := by
  rw [resolveType]
  cases st.probe (st.typeCandidates name) (some name.simple) <;> rfl

theorem resolveType_bare (h : t.singles = st.imports.singles) (here : Surroundings)
    (name : TypeName) :
    ((st.withImports t).resolveType here name).bare = (st.resolveType here name).bare := by
  have hempty : ((st.withImports t).imports.bindingsFor name.root).isEmpty =
      (st.imports.bindingsFor name.root).isEmpty :=
    isEmpty_of_mem_iff (ImportTable.mem_bindingsFor_iff h name.root)
  have hsecondary : (st.withImports t).secondaryCandidates here name =
      st.secondaryCandidates here name := rfl
  simp only [resolveType_eq, (st.alike_withImports t).probe, hempty, hsecondary]
  refine Resolution.otherwise_bare (probe_bare (mem_typeCandidates h name) _) fun reason reason' => ?_
  split <;> rfl

theorem resolveSimple_bare (h : t.singles = st.imports.singles) (here : Surroundings)
    (name : String) :
    ((st.withImports t).resolveSimple here name).bare = (st.resolveSimple here name).bare := by
  have hsecondary : (st.withImports t).secondaryCandidates here ⟨[name]⟩ =
      st.secondaryCandidates here ⟨[name]⟩ := rfl
  simp only [resolveSimple, (st.alike_withImports t).probe, hsecondary]
  cases here.scopes.lookup? name with
  | some declared =>
    cases declared with
    | none => rfl
    | some type => exact resolveType_bare h here type
  | none =>
    dsimp only
    cases here.classes.findSome? _ with
    | some internal => rfl
    | none =>
      have hmem := ImportTable.mem_bindingsFor_iff h name
      have hempty : (t.bindingsFor name).isEmpty = (st.imports.bindingsFor name).isEmpty :=
        isEmpty_of_mem_iff hmem
      have hprobe : (st.probe ((t.bindingsFor name).flatMap ImportBinding.candidates) none).bare =
          (st.probe ((st.imports.bindingsFor name).flatMap ImportBinding.candidates) none).bare :=
        probe_bare (by simp only [List.mem_flatMap, hmem, implies_true]) none
      rw [show (st.withImports t).imports = t from rfl]
      cases hnew : t.bindingsFor name <;> cases hold : st.imports.bindingsFor name <;>
        simp only [hnew, hold, List.isEmpty_nil, List.isEmpty_cons] at hempty hprobe
      · rfl
      · cases hempty
      · cases hempty
      · exact hprobe

theorem writtenReceiver_bare (h : t.singles = st.imports.singles) (here : Surroundings)
    (type : Option Node) (otherwise : String) :
    ((st.withImports t).writtenReceiver here type otherwise).bare =
      (st.writtenReceiver here type otherwise).bare := by
  unfold writtenReceiver
  cases hname : type.bind st.source.typeName? with
  | none => simp only [withImports, hname]
  | some name =>
    simp only [withImports, hname]
    exact resolveType_bare h here name

theorem plainReceiver_bare (h : t.singles = st.imports.singles) (here : Surroundings) (obj : Node) :
    Verdict.bare (((st.withImports t).plainReceiver here obj).answered answers) =
      Verdict.bare ((st.plainReceiver here obj).answered answers) := by
  unfold plainReceiver
  split
  · rfl
  · rfl
  · exact Verdict.bare_ok (resolveSimple_bare h here _)
  · dsimp only
    split
    · exact Verdict.bare_ok (writtenReceiver_bare h here _ _)
    · rfl
  · exact Verdict.bare_ok (writtenReceiver_bare h here _ _)
  · rfl
  · rfl
  · rfl

theorem onReceiver_erased (method : String) (received : Verdict) :
    Verdict.bare (st.onReceiver answers method (Verdict.bare received)) =
      Verdict.bare (st.onReceiver answers method received) := by
  cases received with
  | error crash => rfl
  | ok res => cases res <;> rfl

theorem onReceiver_withImports (method : String) (received : Verdict) :
    (st.withImports t).onReceiver answers method received = st.onReceiver answers method received := by
  unfold onReceiver
  split
  · rw [(st.alike_withImports t).locateMethod]
  · rfl

/-- Of its receiver, a call depends on the class alone. -/
theorem onReceiver_bare {received received' : Verdict}
    (h : Verdict.bare received' = Verdict.bare received) (method : String) :
    Verdict.bare (st.onReceiver answers method received') =
      Verdict.bare (st.onReceiver answers method received) := by
  rw [← onReceiver_erased method received', h, onReceiver_erased]

theorem bareStaticCall_answered (here : Surroundings) (method : String) :
    (st.bareStaticCall here method).answered answers =
      match (st.ownMethod? here method).answered answers with
      | .ok (some target) => .ok (.resolved target)
      | .ok none => st.onReceiver answers method
          (.ok (st.probe ((st.imports.ownersOf method).flatMap ClassName.nestedForms) none))
      | .error crash => .error crash := by
  rw [bareStaticCall, Attempt.answered_bind]
  cases (st.ownMethod? here method).answered answers with
  | error crash => rfl
  | ok own =>
    cases own with
    | some target => rfl
    | none =>
      dsimp only
      cases st.probe ((st.imports.ownersOf method).flatMap ClassName.nestedForms) none <;> rfl

theorem bareStaticCall_bare (h : t.singles = st.imports.singles) (here : Surroundings)
    (method : String) :
    Verdict.bare (((st.withImports t).bareStaticCall here method).answered answers) =
      Verdict.bare ((st.bareStaticCall here method).answered answers) := by
  have howners := ImportTable.mem_ownersOf_iff h method
  have hprobe : (st.probe ((t.ownersOf method).flatMap ClassName.nestedForms) none).bare =
      (st.probe ((st.imports.ownersOf method).flatMap ClassName.nestedForms) none).bare :=
    st.probe_bare (by simp only [List.mem_flatMap, howners, implies_true]) none
  have hown : (st.withImports t).ownMethod? here method = st.ownMethod? here method := by
    simp only [ownMethod?, (st.alike_withImports t).thisClass, (st.alike_withImports t).declaring]
  rw [bareStaticCall_answered, bareStaticCall_answered, hown, onReceiver_withImports]
  cases (st.ownMethod? here method).answered answers with
  | error crash => rfl
  | ok own =>
    cases own with
    | some target => rfl
    | none => exact onReceiver_bare (Verdict.bare_ok hprobe) method

/-- A call that is made on no other comes to the same. -/
theorem settled_bare (h : t.singles = st.imports.singles) (here : Surroundings) (n : Node) :
    Verdict.bare ((st.withImports t).settled answers here n) =
      Verdict.bare (st.settled answers here n) := by
  unfold settled freshCall
  cases n.child? "name" with
  | none => rfl
  | some name =>
    cases n.child? "object" with
    | none =>
      have hempty : (t.ownersOf (st.source.text name)).isEmpty =
          (st.imports.ownersOf (st.source.text name)).isEmpty :=
        isEmpty_of_mem_iff (ImportTable.mem_ownersOf_iff h _)
      dsimp only
      rw [(st.alike_withImports t).source, (st.alike_withImports t).thisClass,
        (st.alike_withImports t).methodOf, show (st.withImports t).imports = t from rfl, hempty]
      split
      · rfl
      · simp only [Inquiry.answered_bind]
        exact bareStaticCall_bare h here _
    | some obj =>
      dsimp only
      split
      · rfl
      · simp only [Inquiry.answered_bind, methodOf_answered, onReceiver_withImports]
        exact onReceiver_bare (plainReceiver_bare h here obj) _

theorem returnedClass_erased (res : Resolution) : st.returnedClass res.bare = st.returnedClass res := by
  cases res <;> rfl

theorem onward_erased (n : Node) (inner : Verdict) :
    st.onward answers n (Verdict.bare inner) = st.onward answers n inner := by
  cases inner with
  | error crash => rfl
  | ok res => exact congrArg (fun r => st.onReceiver answers _ (.ok r)) (returnedClass_erased res)

/-- Of the call that it is made on, a call depends on the method alone. -/
theorem onward_bare {inner inner' : Verdict} (n : Node)
    (h : Verdict.bare inner' = Verdict.bare inner) :
    Verdict.bare ((st.withImports t).onward answers n inner') =
      Verdict.bare (st.onward answers n inner) := by
  rw [← onward_erased n inner', h, onward_erased, onward, onward, onReceiver_withImports,
    (st.alike_withImports t).source, (st.alike_withImports t).returnedClass]

theorem keep_erased (n : Node) (outcome : CallOutcome) :
    CallOutcome.bare (keep n outcome) = keep n (CallOutcome.bare outcome) := by
  obtain ⟨verdict, memo⟩ := outcome
  cases verdict <;> rfl

theorem keep_bare {outcome outcome' : CallOutcome} (n : Node)
    (h : CallOutcome.bare outcome' = CallOutcome.bare outcome) :
    CallOutcome.bare (keep n outcome') = CallOutcome.bare (keep n outcome) := by
  rw [keep_erased, keep_erased, h]

/-- Calls come to the same and the same is remembered of them, link after link of a chain. -/
theorem resolveCall_bare (answers : Answers) (h : t.singles = st.imports.singles)
    (here : Surroundings) (depth : Nat) {memo memo' : CallMemo}
    (hmemo : CallMemo.bare memo' = CallMemo.bare memo) (n : Node) :
    CallOutcome.bare (((st.withImports t).resolveCall here depth memo' n).answered answers) =
      CallOutcome.bare ((st.resolveCall here depth memo n).answered answers) := by
  have hlookup : (memo'.lookup n.span).map Resolution.bare =
      (memo.lookup n.span).map Resolution.bare := by
    rw [← CallMemo.lookup_bare, ← CallMemo.lookup_bare, hmemo]
  cases hknown : memo.lookup n.span with
  | some res =>
    rw [hknown, Option.map_some, Option.map_eq_some_iff] at hlookup
    obtain ⟨res', hknown', hres⟩ := hlookup
    rw [resolveCall_known hknown, resolveCall_known hknown']
    exact congrArg₂ Prod.mk (Verdict.bare_ok hres) hmemo
  | none =>
    rw [hknown, Option.map_none, Option.map_eq_none_iff] at hlookup
    cases hn : n.receiver? with
    | none =>
      rw [resolveCall_last hknown hn, resolveCall_last hlookup hn]
      exact keep_bare n (congrArg₂ Prod.mk (settled_bare h here n) hmemo)
    | some m =>
      cases depth with
      | zero =>
        rw [resolveCall_deep hknown hn, resolveCall_deep hlookup hn]
        exact congrArg (Prod.mk _) (congrArg (List.cons _) hmemo)
      | succ depth =>
        -- The receiver is resolved with the same memos, and from there on only its method counts.
        obtain ⟨hinner, hlearnt⟩ := Prod.ext_iff.mp (resolveCall_bare answers h here depth hmemo m)
        rw [resolveCall_more hknown hn, resolveCall_more hlookup hn]
        exact keep_bare n (congrArg₂ Prod.mk (onward_bare n hinner) hlearnt)

theorem findAt_bare (answers : Answers) (h : t.singles = st.imports.singles) {memo memo' : CallMemo}
    (hmemo : CallMemo.bare memo' = CallMemo.bare memo) (s : Site) :
    Prod.map (Option.map Finding.bare) CallMemo.bare
        ((st.withImports t).findAt answers (st.withImports t).remembering memo' s) =
      Prod.map (Option.map Finding.bare) CallMemo.bare
        (st.findAt answers st.remembering memo s) := by
  cases s with
  | imported d =>
    simp only [findAt, finding?, (st.alike_withImports t).probe, Prod.map_apply, hmemo]
  | type node here =>
    simp only [findAt, finding?, (st.alike_withImports t).source, Prod.map_apply, Option.map_map,
      hmemo]
    refine congrArg₂ Prod.mk (congrArg (Option.map · _) (funext fun name => ?_)) rfl
    exact congrArg (Finding.mk (.type node here) node "type")
      (Verdict.bare_ok (resolveType_bare h here name))
  | call node here =>
    have hcall := resolveCall_bare answers h here st.limit hmemo node
    cases hname : node.child? "name" with
    | none => simp only [findAt, hname, Prod.map_apply, Option.map_none, hmemo]
    | some name =>
      simp only [findAt, hname, Prod.map_apply, Option.map_some]
      exact congrArg (fun o => (some (Finding.mk (.call node here) name "method" o.1), o.2)) hcall

/-- One reference after another comes to the same. -/
theorem survey_bare (answers : Answers) (h : t.singles = st.imports.singles) {memo memo' : CallMemo}
    (hmemo : CallMemo.bare memo' = CallMemo.bare memo) (sites : List Site) :
    ((st.withImports t).survey answers (st.withImports t).remembering memo' sites).1.map Finding.bare =
      (st.survey answers st.remembering memo sites).1.map Finding.bare := by
  induction sites generalizing memo memo' with
  | nil => rfl
  | cons s sites ih =>
    have hfind := findAt_bare answers h hmemo s
    rw [survey, survey]
    generalize (st.withImports t).findAt answers (st.withImports t).remembering memo' s = found' at hfind ⊢
    generalize st.findAt answers st.remembering memo s = found at hfind ⊢
    obtain ⟨hfound, hlearnt⟩ := Prod.mk.inj hfind
    simp only [List.map_append, ← Option.toList_map, hfound, ih hlearnt]

/-- What has come of a reference counts as this. -/
def outcomeOf (st : Setting) (f : Finding) : Outcome :=
  match f.verdict with
  | .ok res => st.outcome f.node f.kind res
  | .error _ => .crashed

theorem outcomeOf_erased (f : Finding) : st.outcomeOf f.bare = st.outcomeOf f := by
  obtain ⟨site, node, kind, verdict⟩ := f
  cases verdict with
  | error crash => rfl
  | ok res => cases res <;> rfl

theorem record_accounts (p : Progress) (found : List Finding) :
    p.Accounts (found.foldl st.record p) (found.map st.outcomeOf) := by
  induction found generalizing p with
  | nil => exact .of_same rfl rfl
  | cons f found ih =>
    have hf : p.Accounts (st.record p f) [st.outcomeOf f] := by
      unfold record outcomeOf
      cases f.verdict with
      | ok res => exact st.recorded_accounts p f.node f.kind res
      | error crash => exact ⟨(List.append_nil _).symm, rfl⟩
    exact hf.trans (ih _)

/-- What the references come to that a pass meets on its walk, the imports behind it. -/
def walkOutcomes (st : Setting) (answers : Answers) (cancelled : Nat → Bool) : List Outcome :=
  (st.survey answers st.remembering [] (st.sites {} (st.agenda cancelled))).1.map st.outcomeOf

theorem survey_imports (rule : CallRule) (memo : CallMemo) (ds : List Import) :
    (st.survey answers rule memo (ds.map .imported)).2 = memo := by
  induction ds with
  | nil => rfl
  | cons d ds ih => exact ih

theorem resolve_accounts (st : Setting) (cancelled : Nat → Bool) (corpus : Corpus) :
    (st.importPass.run corpus).1.Accounts ((st.resolve cancelled).run corpus).1.1
      (st.walkOutcomes corpus.answers cancelled) := by
  have hmemo : (st.survey corpus.answers st.remembering [] st.importSites).2 = [] := by
    unfold importSites
    split
    · exact survey_imports ..
    · rfl
  obtain ⟨here, calls, hrun⟩ := st.resolve_run cancelled corpus
  rw [hrun, Inquiry.run_answered, importPass_answered st.remembering, found, passSites,
    survey_append, hmemo, List.foldl_append]
  exact ⟨(record_accounts _ _).links, (record_accounts _ _).tally⟩

theorem walkOutcomes_withImports (h : t.singles = st.imports.singles) (answers : Answers)
    (cancelled : Nat → Bool) :
    (st.withImports t).walkOutcomes answers cancelled = st.walkOutcomes answers cancelled := by
  have hmap : ∀ found : List Finding,
      (found.map Finding.bare).map st.outcomeOf = found.map st.outcomeOf := by
    intro found
    rw [List.map_map]
    exact List.map_congr_left fun f _ => outcomeOf_erased f
  have hsites := (st.alike_withImports t).sites {} (st.agenda cancelled)
  calc (st.withImports t).walkOutcomes answers cancelled
      = ((st.withImports t).survey answers (st.withImports t).remembering []
          (st.sites {} (st.agenda cancelled))).1.map st.outcomeOf := by rw [← hsites]; rfl
    _ = st.walkOutcomes answers cancelled := by
      rw [← hmap, survey_bare answers h rfl, hmap, walkOutcomes]

theorem findAt_kind {rule : CallRule} {memo : CallMemo} {s : Site} {f : Finding}
    (h : (st.findAt answers rule memo s).1 = some f) : f.kind = s.kind := by
  cases s with
  | imported d =>
    cases h
    rfl
  | type node here =>
    obtain ⟨_, _, rfl⟩ := Option.map_eq_some_iff.mp h
    rfl
  | call node here =>
    cases hname : node.child? "name" with
    | none => simp [findAt, hname] at h
    | some name =>
      simp only [findAt, hname, Option.some.injEq] at h
      rw [← h]
      rfl

theorem survey_kind {rule : CallRule} {memo : CallMemo} {sites : List Site} {f : Finding}
    (h : f ∈ (st.survey answers rule memo sites).1) : ∃ s ∈ sites, f.kind = s.kind := by
  induction sites generalizing memo with
  | nil => cases h
  | cons s sites ih =>
    rcases List.mem_append.mp h with h | h
    · exact ⟨s, List.mem_cons_self, findAt_kind (Option.mem_toList.mp h)⟩
    · obtain ⟨s', hs', hkind⟩ := ih h
      exact ⟨s', List.mem_cons_of_mem _ hs', hkind⟩

/-- On its walk, a pass comes to types and calls. -/
theorem sites_kind {work : List Work} {s : Site} (h : s ∈ st.sites here work) :
    s.kind = "type" ∨ s.kind = "method" := by
  induction work generalizing here with
  | nil => cases h
  | cons w work ih =>
    rcases List.mem_append.mp h with h | h
    · have hs := Option.mem_toList.mp h
      cases w with
      | exit scopes classes => cases hs
      | enter parent node =>
        rw [Work.site?] at hs
        split at hs <;> cases hs
        · exact .inl rfl
        · exact .inr rfl
    · exact ih h

theorem walkOutcomes_kind {cancelled : Nat → Bool} {link : Link}
    (h : .linked link ∈ st.walkOutcomes answers cancelled) :
    link.kind = "type" ∨ link.kind = "method" := by
  obtain ⟨f, hf, hlinked⟩ := List.mem_map.mp h
  obtain ⟨s, hs, hkind⟩ := survey_kind hf
  unfold outcomeOf at hlinked
  split at hlinked
  · obtain ⟨target, hlink⟩ := st.outcome_fits _ _ _ link hlinked
    obtain ⟨_, _, _, _, rfl⟩ := linkOf_eq hlink
    rw [hkind]
    exact sites_kind hs
  · cases hlinked

/-- Imports act as a set.

Let two tables import the same names one by one, static or not, in whatever order, however often and
among whatever wildcards. Take a pass with each of them over any corpus, readers that crash included,
cancelled or not. Once they have linked their imports, the references that they meet come to the same
outcomes in the same order. So both walks add the same links, of types and methods, to the table and
the same counts to the tally. -/
theorem imports_act_as_a_set (st : Setting) (t : ImportTable) (h : t.singles = st.imports.singles)
    (cancelled : Nat → Bool) (corpus : Corpus) :
    ∃ outcomes : List Outcome,
      (∀ link, .linked link ∈ outcomes → link.kind = "type" ∨ link.kind = "method") ∧
      (st.importPass.run corpus).1.Accounts ((st.resolve cancelled).run corpus).1.1 outcomes ∧
      ((st.withImports t).importPass.run corpus).1.Accounts
        (((st.withImports t).resolve cancelled).run corpus).1.1 outcomes ∧
      (((st.withImports t).resolve cancelled).run corpus).1.2 =
        ((st.resolve cancelled).run corpus).1.2 := by
  refine ⟨st.walkOutcomes corpus.answers cancelled, fun _ => walkOutcomes_kind,
    st.resolve_accounts cancelled corpus, ?_, ?_⟩
  · rw [← walkOutcomes_withImports h]
    exact (st.withImports t).resolve_accounts cancelled corpus
  · obtain ⟨_, _, hrun⟩ := st.resolve_run cancelled corpus
    obtain ⟨_, _, hrun'⟩ := (st.withImports t).resolve_run cancelled corpus
    rw [hrun, hrun']
    rfl

/-- The imports of a class and of a static member, and the same again in another order, with the two
repeated and a wildcard among them. -/
theorem imports_act_as_a_set_of_two :
    let mapName := Node.plain "scoped_identifier" 7 14 []
    let memberName := Node.plain "scoped_identifier" 30 40 []
    let written := Node.plain "type_identifier" 42 45 []
    let call := Node.plain "method_invocation" 46 50 [.mk "identifier" "name" true false 46 48 []]
    let lib : Archive := { id := "lib.jar", entries := ⟨[("lib/Map.class", [])]⟩ }
    let st := ofText [lib] "import lib.Map;\nimport static lib.Map.of;\nMap of()"
      (.plain "program" 0 50 [.plain "import_declaration" 0 15 [mapName],
        .plain "import_declaration" 16 41 [.plain "static" 23 29 [], memberName], written, call])
    let map : Import := ⟨"lib.Map", mapName, false, false⟩
    let member : Import := ⟨"lib.Map.of", memberName, true, false⟩
    let t : ImportTable := ⟨[member, ⟨"lib", mapName, false, true⟩, map, member, map]⟩
    let imported : Link := ⟨7, 14, 1, 8, "lib.jar", "lib/Map", none, "import"⟩
    let walked : LinkTable := [⟨42, 45, 3, 1, "lib.jar", "lib/Map", some "Map", "type"⟩,
      ⟨46, 48, 3, 5, "lib.jar", "lib/Map", some "of", "method"⟩]
    ((st.resolve fun _ => false).run st.corpus).1.1.links = imported :: walked ∧
      (((st.withImports t).resolve fun _ => false).run st.corpus).1.1.links =
        imported :: imported :: walked := by
  intro mapName memberName written call lib st map member t imported walked
  obtain ⟨outcomes, _, hfirst, hsecond, _⟩ :=
    st.imports_act_as_a_set t (by decide +kernel) (fun _ => false) st.corpus
  have hpass : ((st.resolve fun _ => false).run st.corpus).1.1.links = imported :: walked := by
    decide +kernel
  have himports : (st.importPass.run st.corpus).1.links = [imported] := by decide +kernel
  have himports' : ((st.withImports t).importPass.run st.corpus).1.links = [imported, imported] := by
    decide +kernel
  have hwalk := hfirst.links
  rw [hpass, himports, List.singleton_append, List.cons.injEq] at hwalk
  rw [hsecond.links, himports', ← hwalk.2]
  exact ⟨hpass, rfl⟩

end Setting
end SourceLinks
