import SourceLinks.Proofs.Findings

namespace SourceLinks

namespace Corpus
variable {f : Archive → Archive}

/-- The archives with something changed about each of them. -/
def mapArchives (c : Corpus) (f : Archive → Archive) : Corpus :=
  ⟨c.archives.map f⟩

theorem get_mapArchives (c : Corpus) (hid : ∀ a, (f a).id = a.id) (id : String) :
    (c.mapArchives f).get? id = (c.get? id).map f := by
  simp only [get?, mapArchives, List.find?_map, Function.comp_def, hid]

theorem searchOrder_mapArchives (c : Corpus) (hid : ∀ a, (f a).id = a.id) (prefer : Option String) :
    (c.mapArchives f).searchOrder prefer = (c.searchOrder prefer).map f := by
  unfold searchOrder
  split
  · rfl
  · rfl
  · rename_i id _
    rw [get_mapArchives c hid]
    cases c.get? id with
    | none => rfl
    | some first => simp [mapArchives, List.filter_map, Function.comp_def, hid]

/-- A lookup sees nothing of an archive but its id and its entries. -/
theorem lookup_mapArchives (c : Corpus) (hid : ∀ a, (f a).id = a.id)
    (hentries : ∀ a, (f a).entries = a.entries) (name : String) (prefer : Option String) :
    (c.mapArchives f).lookup? name prefer = c.lookup? name prefer := by
  have hholds : ∀ a, (f a).hasClass name = a.hasClass name := by
    intro a
    rw [Archive.hasClass, Archive.classBytes?, hentries]
    rfl
  simp only [lookup?, searchOrder_mapArchives c hid, List.find?_map, Function.comp_def, hholds,
    Option.map_map, hid]

theorem chainBound_mapArchives (c : Corpus) (hentries : ∀ a, (f a).entries = a.entries) :
    (c.mapArchives f).chainBound = c.chainBound := by
  simp only [chainBound, mapArchives, List.foldl_map, hentries]

end Corpus

namespace Setting
variable {st st' : Setting} {here : Surroundings}

/-- Two passes over one document that take every class from the same archive. -/
structure Alike (st st' : Setting) : Prop where
  source : st'.source = st.source
  locate : ∀ name, st'.locate? name = st.locate? name
  bound : st'.corpus.chainBound = st.corpus.chainBound

namespace Alike

theorem probe (h : st.Alike st') (candidates : List String) (anchor : Option String) :
    st'.probe candidates anchor = st.probe candidates anchor := by
  simp only [Setting.probe, h.locate]

theorem declaringFrom (h : st.Alike st') (method : String) (bound : Nat) (seen : List String)
    (archive name : String) :
    st'.declaringFrom method bound seen archive name = st.declaringFrom method bound seen archive name := by
  induction bound generalizing seen archive name with
  | zero => rfl
  | succ bound ih => simp only [Setting.declaringFrom, h.locate, ih]

theorem declaring (h : st.Alike st') (owner : Target) (method : String) :
    st'.declaring? owner method = st.declaring? owner method := by
  simp only [declaring?, h.bound, h.declaringFrom]

theorem locateMethod (h : st.Alike st') (owner : Target) (method : String) :
    st'.locateMethod owner method = st.locateMethod owner method := by
  simp only [Setting.locateMethod, h.declaring]

theorem thisClass (h : st.Alike st') (here : Surroundings) :
    st'.thisClass here = st.thisClass here := by
  simp only [Setting.thisClass, h.probe]

theorem methodOf (h : st.Alike st') (memo : CallMemo) (method : String) (received : Verdict) :
    st'.methodOf memo method received = st.methodOf memo method received := by
  unfold Setting.methodOf
  split
  · rw [h.locateMethod]
  · rfl

theorem returnedClass (h : st.Alike st') : st'.returnedClass = st.returnedClass := by
  funext res
  unfold Setting.returnedClass
  split
  · exact h.probe _ _
  · rfl
  · rfl

/-- What an item makes of the surroundings is a matter of the source. -/
theorem moved (h : st.Alike st') (here : Surroundings) (w : Work) :
    st'.moved here w = st.moved here w := by
  cases w with
  | exit scopes classes => rfl
  | enter parent n =>
    simp only [Setting.moved, surround, classOf?, classContext, h.source]

theorem sites (h : st.Alike st') (here : Surroundings) (work : List Work) :
    st'.sites here work = st.sites here work := by
  induction work generalizing here with
  | nil => rfl
  | cons w work ih => rw [Setting.sites, Setting.sites, h.moved, ih]

theorem linksAt (h : st.Alike st') (f : Finding) : st'.linksAt f = st.linksAt f := by
  simp only [Setting.linksAt, linksFor, linkOf, h.source]

theorem linkOf (h : st.Alike st') (node : Node) (target : Target) (kind : String) :
    st'.linkOf node target kind = st.linkOf node target kind := by
  simp only [Setting.linkOf, h.source]

theorem mishap (h : st.Alike st') (p : Progress) (why : Mishap) :
    st'.mishap p why = st.mishap p why := by
  simp only [Setting.mishap, h.source]

theorem emit (h : st.Alike st') (p : Progress) (node : Node) (kind : String) (res : Resolution) :
    st'.emit p node kind res = st.emit p node kind res := by
  simp only [Setting.emit, h.linkOf, h.mishap, h.source]

theorem linkImport (h : st.Alike st') (p : Progress) (d : Import) :
    st'.linkImport p d = st.linkImport p d := by
  simp only [Setting.linkImport, h.emit, h.probe]

end Alike

/-- Two such passes that have the same imports. -/
structure Agrees (st st' : Setting) : Prop extends st.Alike st' where
  imports : st'.imports = st.imports

namespace Agrees

theorem resolveType (h : st.Agrees st') (here : Surroundings) (name : TypeName) :
    st'.resolveType here name = st.resolveType here name := by
  simp only [Setting.resolveType, typeCandidates, secondaryCandidates, h.probe, h.imports, h.source]

theorem resolveSimple (h : st.Agrees st') (here : Surroundings) (name : String) :
    st'.resolveSimple here name = st.resolveSimple here name := by
  simp only [Setting.resolveSimple, secondaryCandidates, h.probe, h.imports, h.source, h.resolveType]

theorem plainReceiver (h : st.Agrees st') (here : Surroundings) (obj : Node) :
    st'.plainReceiver here obj = st.plainReceiver here obj := by
  simp only [Setting.plainReceiver, superClass, writtenReceiver, h.thisClass, h.probe, h.locate,
    h.source, h.resolveType, h.resolveSimple]

theorem bareStaticCall (h : st.Agrees st') (here : Surroundings) (method : String) :
    st'.bareStaticCall here method = st.bareStaticCall here method := by
  simp only [Setting.bareStaticCall, ownMethod?, h.thisClass, h.probe, h.imports, h.declaring,
    h.locateMethod]

/-- A call is resolved in the same way, question by question. -/
theorem freshCall (h : st.Agrees st') (here : Surroundings)
    (chained : Option (CallMemo → Node → Inquiry CallOutcome)) (memo : CallMemo) (n : Node) :
    st'.freshCall here chained memo n = st.freshCall here chained memo n := by
  simp only [Setting.freshCall, h.source, h.imports, h.methodOf, h.thisClass, h.bareStaticCall,
    h.returnedClass, h.plainReceiver]

theorem resolveAfresh (h : st.Agrees st') (here : Surroundings) (depth : Nat) :
    st'.resolveAfresh here depth = st.resolveAfresh here depth := by
  induction depth with
  | zero =>
    funext memo n
    exact h.freshCall ..
  | succ depth ih =>
    funext memo n
    rw [Setting.resolveAfresh, Setting.resolveAfresh, ih]
    exact h.freshCall ..

theorem resolveCall (h : st.Agrees st') (here : Surroundings) (depth : Nat) :
    st'.resolveCall here depth = st.resolveCall here depth := by
  have hfresh : ∀ chained, st'.freshCall here chained = st.freshCall here chained := fun chained =>
    funext fun memo => funext fun n => h.freshCall here chained memo n
  induction depth with
  | zero => rw [Setting.resolveCall, Setting.resolveCall, hfresh]
  | succ depth ih => rw [Setting.resolveCall, Setting.resolveCall, ih, hfresh]

theorem unlimited (h : st.Agrees st') (answers : Answers) (here : Surroundings) (n : Node) :
    st'.unlimited answers here n = st.unlimited answers here n := by
  have hfits : (st'.resolveAfresh here n.chain.length [] n).answered answers =
      (st'.unlimited answers here n, []) := resolveAfresh_fits (by omega) []
  rw [h.resolveAfresh, resolveAfresh_fits (by omega)] at hfits
  exact (congrArg Prod.fst hfits).symm

/-- The passes come to the same references. -/
theorem passSites (h : st.Agrees st') (hon : st'.config.linkImports = st.config.linkImports)
    (cancelled : Nat → Bool) : st'.passSites cancelled = st.passSites cancelled := by
  simp only [Setting.passSites, importSites, agenda, h.source, h.imports, hon, h.sites]

theorem findings (h : st.Agrees st') (verdict : Surroundings → Node → Verdict) (sites : List Site) :
    st'.findings verdict sites = st.findings verdict sites := by
  refine List.flatMap_congr fun s _ => ?_
  cases s with
  | imported d => simp only [finding?, h.probe]
  | type n here => simp only [finding?, h.source, h.resolveType]
  | call n here => rfl

theorem importPass (h : st.Agrees st') (hconfig : st'.config = st.config) :
    st'.importPass = st.importPass := by
  have hwalk : ∀ ds p, st'.walkImports ds p = st.walkImports ds p := by
    intro ds
    induction ds with
    | nil => exact fun p => rfl
    | cons d ds ih => exact fun p => by simp only [Setting.walkImports, h.linkImport, ih]
  simp only [Setting.importPass, hconfig, h.imports, hwalk]

theorem linkType (h : st.Agrees st') (p : Progress) (node : Node) :
    st'.linkType p node = st.linkType p node := by
  simp only [Setting.linkType, h.source, h.emit, h.resolveType]

theorem linkCall (h : st.Agrees st') (hconfig : st'.config = st.config) (p : Progress) (node : Node) :
    st'.linkCall p node = st.linkCall p node := by
  simp only [Setting.linkCall, hconfig, h.resolveCall, h.emit, h.mishap]

theorem perform (h : st.Agrees st') (hconfig : st'.config = st.config) (w : Work) (p : Progress) :
    st'.perform w p = st.perform w p := by
  cases w with
  | exit scopes classes => rfl
  | enter parent n =>
    simp only [Setting.perform, enter, classContext, h.source, h.linkType, h.linkCall hconfig]

/-- The whole pass is the same, question by question and note by note. -/
theorem resolve (h : st.Agrees st') (hconfig : st'.config = st.config) (cancelled : Nat → Bool) :
    st'.resolve cancelled = st.resolve cancelled := by
  simp only [resolve_agenda, resolveBy, agenda, stops, h.importPass hconfig, h.perform hconfig,
    h.source]

end Agrees
end Setting
end SourceLinks
