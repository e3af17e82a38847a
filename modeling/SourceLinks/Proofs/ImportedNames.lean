import SourceLinks.Proofs.SimpleNames

namespace SourceLinks.Setting
variable {st : Setting} {names : List String} {anchor : Option String} {d : Import} {t : Target}

/-- An outcome over candidates of which a given class is one. It is that class, in the archive that
it is taken from, if no other candidate is loaded, and otherwise the choice between all that are. -/
def KeepsTo (st : Setting) (names : List String) (t : Target) (res : Resolution) : Prop :=
  st.OnlyLoaded names t.name ∧ (∃ anchor, res = .resolved { t with anchor }) ∨
    (∃ rival ∈ names, rival ≠ "" ∧ st.IsLoaded rival ∧ rival ≠ t.name) ∧
      ∃ choice, res = .ambiguous choice ∧ t.name ∈ choice ∧
        ∀ c, c ∈ choice ↔ c ∈ names ∧ c ≠ "" ∧ st.IsLoaded c

theorem probe_supported (names : List String) (anchor : Option String) (reason : String) :
    st.probe names anchor ≠ .unsupported reason := by
  rw [probe_eq]
  split
  · simp
  · simp
  · simp

/-- The candidates that a probe leaves open are those that are loaded. -/
theorem mem_of_probe_ambiguous {choice : List String}
    (h : st.probe names anchor = .ambiguous choice) (c : String) :
    c ∈ choice ↔ c ∈ names ∧ c ≠ "" ∧ st.IsLoaded c := by
  have hchoice : choice = (st.hits names).map Prod.fst := by
    rw [probe_eq] at h
    split at h
    · cases h
    · cases h
    · cases h
      rfl
  rw [hchoice, List.mem_map]
  constructor
  · rintro ⟨⟨_, archive⟩, hmem, rfl⟩
    obtain ⟨⟨hin, hne⟩, hat⟩ := mem_hits.mp hmem
    exact ⟨hin, hne, archive, hat⟩
  · rintro ⟨hin, hne, archive, hat⟩
    exact ⟨(c, archive), mem_hits.mpr ⟨⟨hin, hne⟩, hat⟩, rfl⟩

/-- A probe whose candidates include a loaded class keeps to it. -/
theorem probe_keepsTo (hfound : st.Found t) (hreturns : t.returns = none) (hmem : t.name ∈ names) :
    st.KeepsTo names t (st.probe names anchor) := by
  have hloaded : st.IsLoaded t.name := ⟨t.archive, hfound.located⟩
  by_cases hrival : ∃ rival ∈ names, rival ≠ "" ∧ st.IsLoaded rival ∧ rival ≠ t.name
  · refine .inr ⟨hrival, ?_⟩
    cases hp : st.probe names anchor with
    | ambiguous choice =>
      have hchoice := mem_of_probe_ambiguous hp
      exact ⟨choice, rfl, (hchoice t.name).mpr ⟨hmem, hfound.named, hloaded⟩, hchoice⟩
    | resolved u =>
      -- The class and its rival would both be the only one that is loaded.
      obtain ⟨rival, hin, hne, hother, hdiffers⟩ := hrival
      have honly := (probe_resolved.mp hp).1.1
      have hclass : t.name = u.name := honly.only t.name hmem hfound.named hloaded
      exact absurd ((honly.only rival hin hne hother).trans hclass.symm) hdiffers
    | unresolved reason =>
      exact absurd hloaded (probe_unresolved.mp ⟨reason, hp⟩ t.name hmem hfound.named)
    | unsupported reason => exact absurd hp (probe_supported names anchor reason)
  · have honly : st.OnlyLoaded names t.name := by
      refine ⟨hmem, hfound.named, hloaded, ?_⟩
      intro rival hin hne hother
      by_contra hdiffers
      exact hrival ⟨rival, hin, hne, hother, hdiffers⟩
    exact .inl ⟨honly, anchor, probe_resolved.mpr ⟨⟨honly, hfound.located⟩, rfl, hreturns⟩⟩

/-- Every reading of an import is a candidate for the name that it binds. -/
theorem import_offers (hd : d ∈ st.imports.declarations) (hsingle : d.isSingleType = true)
    {c : String} (hc : c ∈ ClassName.nestedForms d.internal) :
    c ∈ (st.imports.bindingsFor d.simple).flatMap ImportBinding.candidates := by
  refine List.mem_flatMap.mpr ⟨⟨d.simple, d.internal⟩, ?_, hc⟩
  simp only [ImportTable.bindingsFor, ImportTable.bindings, List.mem_filter, List.mem_map,
    beq_self_eq_true, and_true]
  exact ⟨d, ⟨hd, hsingle⟩, rfl⟩

/-- Where the candidates of the first tier include a loaded class, a type name keeps to it. -/
theorem resolveType_keepsTo {name : TypeName} (here : Surroundings) (hfound : st.Found t)
    (hreturns : t.returns = none) (hmem : t.name ∈ st.typeCandidates name) :
    st.KeepsTo (st.typeCandidates name) t (st.resolveType here name) := by
  have hfirst :
      st.resolveType here name = st.probe (st.typeCandidates name) (some name.simple) := by
    unfold resolveType
    split
    · rename_i reason hp
      have hnone := probe_unresolved.mp ⟨reason, hp⟩
      exact absurd ⟨t.archive, hfound.located⟩ (hnone t.name hmem hfound.named)
    · rfl
  rw [hfirst]
  exact probe_keepsTo hfound hreturns hmem

/-- A receiver that an import binds, and that no variable and no enclosing class has the name of, is
read by the imports alone. -/
theorem resolveSimple_imported {here : Surroundings} {x : String}
    (hx : here.scopes.lookup? x = none) (hc : here.classNamed? x = none)
    (hbound : st.imports.bindingsFor x ≠ []) :
    st.resolveSimple here x =
      st.probe ((st.imports.bindingsFor x).flatMap ImportBinding.candidates) none := by
  unfold Surroundings.classNamed? at hc
  simp only [resolveSimple, hx, hc]

/-- Where the import of one class is linked, its simple name keeps to that class wherever it is
written: as a type, and as a receiver unless a variable or an enclosing class has the name. What can
make it ambiguous are the other imports of the name and, for a type, the language's own package. -/
theorem uses_keep_to_import (hd : d ∈ st.imports.declarations) (hsingle : d.isSingleType = true)
    (himport : st.probe (ClassName.nestedForms d.internal) none = .resolved t)
    (here : Surroundings) :
    st.KeepsTo (st.typeCandidates ⟨[d.simple]⟩) t (st.resolveType here ⟨[d.simple]⟩) ∧
      (here.scopes.lookup? d.simple = none → here.classNamed? d.simple = none →
        st.KeepsTo ((st.imports.bindingsFor d.simple).flatMap ImportBinding.candidates) t
          (st.resolveSimple here d.simple)) := by
  obtain ⟨⟨honly, hat⟩, _, hreturns⟩ := probe_resolved.mp himport
  have hfound : st.Found t := ⟨honly.named, hat⟩
  have hoffered := import_offers hd hsingle honly.mem
  constructor
  · exact resolveType_keepsTo here hfound hreturns
      (mem_simpleCandidates.mpr ⟨.inl hoffered, honly.named⟩)
  · intro hx hc
    have hbound : st.imports.bindingsFor d.simple ≠ [] := by
      intro hnil
      simp [hnil] at hoffered
    rw [resolveSimple_imported hx hc hbound]
    exact probe_keepsTo hfound hreturns hoffered

/-- The import of a member class beside one of the same name that is not loaded. The language's own
package has a class of the name too, so the name is ambiguous as a type and not as a receiver. -/
theorem uses_keep_to_import_of_member :
    let member := Node.plain "scoped_identifier" 7 20 []
    let other := Node.plain "scoped_identifier" 29 37 []
    let lib : Archive := { id := "lib.jar", entries := ⟨[("lib/Outer$Map.class", []),
      ("java/lang/Map.class", [])]⟩ }
    let st := ofText [lib] "import lib.Outer.Map;\nimport util.Map;"
      (.plain "program" 0 38 [.plain "import_declaration" 0 21 [member],
        .plain "import_declaration" 22 38 [other]])
    let d : Import := ⟨"lib.Outer.Map", member, false, false⟩
    let t : Target := ⟨"lib.jar", "lib/Outer$Map", none, none⟩
    let imported := (st.imports.bindingsFor "Map").flatMap ImportBinding.candidates
    d ∈ st.imports.declarations ∧
      st.probe (ClassName.nestedForms d.internal) none = .resolved t ∧
      imported = ["lib/Outer/Map", "lib/Outer$Map", "lib$Outer$Map", "util/Map", "util$Map"] ∧
      st.KeepsTo (st.typeCandidates ⟨["Map"]⟩) t (st.resolveType {} ⟨["Map"]⟩) ∧
      st.KeepsTo imported t (st.resolveSimple {} "Map") ∧
      st.resolveType {} ⟨["Map"]⟩ = .ambiguous ["lib/Outer$Map", "java/lang/Map"] ∧
      st.resolveSimple {} "Map" = .resolved t := by
  intro member other lib st d t imported
  have hd : d ∈ st.imports.declarations := by
    have htext : String.ofList (Text.words (st.source.text member).toList).flatten = d.dotted := by
      decide +kernel
    have hfirst : st.imports.declarations.head? = some { d with
        dotted := String.ofList (Text.words (st.source.text member).toList).flatten } := rfl
    rw [htext] at hfirst
    exact List.mem_of_mem_head? hfirst
  have himport : st.probe (ClassName.nestedForms d.internal) none = .resolved t := by decide +kernel
  have hsimple : d.simple = "Map" := by decide
  obtain ⟨htype, hreceiver⟩ := uses_keep_to_import hd rfl himport {}
  rw [hsimple] at htype hreceiver
  exact ⟨hd, himport, by decide +kernel, htype, hreceiver rfl rfl, by decide +kernel,
    by decide +kernel⟩

end SourceLinks.Setting
