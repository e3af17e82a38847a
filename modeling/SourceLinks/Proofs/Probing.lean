import Mathlib.Data.List.Nodup
import SourceLinks.Proofs.FirstMention
import SourceLinks.Resolver.Types

namespace SourceLinks

namespace Corpus

theorem mem_searchOrder {c : Corpus} {prefer : Option String} {a : Archive}
    (h : a ∈ c.searchOrder prefer) : a ∈ c.archives := by
  unfold searchOrder at h
  split at h
  · exact h
  · exact h
  split at h
  · exact h
  · rename_i first hfirst
    rcases List.mem_cons.mp h with rfl | hrest
    · exact List.mem_of_find?_eq_some hfirst
    · exact List.mem_of_mem_filter hrest

/-- What a lookup names is a loaded archive that holds the class. -/
theorem holds_of_lookup {c : Corpus} {name id : String} {prefer : Option String}
    (h : c.lookup? name prefer = some id) :
    ∃ a ∈ c.archives, a.id = id ∧ a.hasClass name = true := by
  unfold lookup? at h
  obtain ⟨a, ha, hid⟩ := Option.map_eq_some_iff.mp h
  have hholds := List.find?_some ha
  exact ⟨a, mem_searchOrder (List.mem_of_find?_eq_some ha), hid, hholds⟩

end Corpus

theorem mem_distinctNames {names : List String} {n : String} :
    n ∈ distinctNames names ↔ n ∈ names ∧ n ≠ "" := by
  simp [distinctNames, List.mem_eraseDups]

theorem nodup_distinctNames (names : List String) : (distinctNames names).Nodup :=
  nodup_eraseDups _

namespace Setting
variable {st : Setting} {names : List String} {anchor : Option String} {c : String} {t : Target}

/-- Some archive holds a class of this name. -/
def IsLoaded (st : Setting) (name : String) : Prop :=
  ∃ archive, st.locate? name = some archive

/-- Of these candidates, among which the empty name does not count, this one alone is loaded. -/
structure OnlyLoaded (st : Setting) (names : List String) (c : String) : Prop where
  mem : c ∈ names
  named : c ≠ ""
  loaded : st.IsLoaded c
  only : ∀ d ∈ names, d ≠ "" → st.IsLoaded d → d = c

/-- The candidates that are loaded, each with its archive. -/
def hits (st : Setting) (names : List String) : List (String × String) :=
  (distinctNames names).filterMap fun n => (st.locate? n).map fun archive => (n, archive)

theorem mem_hits {archive : String} :
    (c, archive) ∈ st.hits names ↔ (c ∈ names ∧ c ≠ "") ∧ st.locate? c = some archive := by
  simp only [hits, List.mem_filterMap, mem_distinctNames, Option.map_eq_some_iff, Prod.mk.injEq]
  constructor
  · rintro ⟨n, hn, a, ha, rfl, rfl⟩
    exact ⟨hn, ha⟩
  · rintro ⟨hn, ha⟩
    exact ⟨c, hn, archive, ha, rfl, rfl⟩

theorem nodup_hits (st : Setting) (names : List String) : (st.hits names).Nodup := by
  refine List.Nodup.filterMap ?_ (nodup_distinctNames names)
  intro n m hit hn hm
  obtain ⟨_, _, hn⟩ := Option.map_eq_some_iff.mp hn
  obtain ⟨_, _, hm⟩ := Option.map_eq_some_iff.mp hm
  exact (congrArg Prod.fst (hn.trans hm.symm))

/-- One hit is left over exactly when one candidate alone is loaded. -/
theorem hits_eq_singleton {archive : String} :
    st.hits names = [(c, archive)] ↔ st.OnlyLoaded names c ∧ st.locate? c = some archive := by
  constructor
  · intro h
    have hmem : (c, archive) ∈ st.hits names := by simp [h]
    obtain ⟨⟨hin, hne⟩, hat⟩ := mem_hits.mp hmem
    refine ⟨⟨hin, hne, ⟨archive, hat⟩, ?_⟩, hat⟩
    rintro d hd hdne ⟨other, hother⟩
    have hdmem : (d, other) ∈ st.hits names := mem_hits.mpr ⟨⟨hd, hdne⟩, hother⟩
    rw [h, List.mem_singleton] at hdmem
    exact congrArg Prod.fst hdmem
  · rintro ⟨honly, hat⟩
    rw [← List.perm_singleton, List.perm_ext_iff_of_nodup (nodup_hits st names) (by simp)]
    rintro ⟨d, other⟩
    rw [mem_hits, List.mem_singleton, Prod.mk.injEq]
    constructor
    · rintro ⟨⟨hd, hdne⟩, hother⟩
      have hdc := honly.only d hd hdne ⟨other, hother⟩
      subst hdc
      exact ⟨rfl, Option.some.inj (hother.symm.trans hat)⟩
    · rintro ⟨rfl, rfl⟩
      exact ⟨⟨honly.mem, honly.named⟩, hat⟩

theorem hits_eq_nil :
    st.hits names = [] ↔ ∀ d ∈ names, d ≠ "" → ¬ st.IsLoaded d := by
  rw [List.eq_nil_iff_forall_not_mem]
  constructor
  · rintro h d hd hne ⟨archive, hat⟩
    exact h (d, archive) (mem_hits.mpr ⟨⟨hd, hne⟩, hat⟩)
  · rintro h ⟨d, archive⟩ hmem
    obtain ⟨⟨hd, hne⟩, hat⟩ := mem_hits.mp hmem
    exact h d hd hne ⟨archive, hat⟩

theorem probe_eq (st : Setting) (names : List String) (anchor : Option String) :
    st.probe names anchor =
      match st.hits names with
      | [] => .unresolved ("no candidate loaded: " ++ ", ".intercalate (distinctNames names))
      | [(name, archive)] => .resolved ⟨archive, name, anchor, none⟩
      | hits => .ambiguous (hits.map Prod.fst) := rfl

/-- A probe resolves to the one candidate that is loaded, in the archive that it is taken from. -/
theorem probe_resolved :
    st.probe names anchor = .resolved t ↔
      (st.OnlyLoaded names t.name ∧ st.locate? t.name = some t.archive) ∧
        t.anchor = anchor ∧ t.returns = none := by
  rw [← hits_eq_singleton, probe_eq]
  obtain ⟨archive, name, anchor', returns⟩ := t
  split
  · rename_i h
    simp [h]
  · rename_i name' archive' h
    simp only [h, Resolution.resolved.injEq, Target.mk.injEq, List.cons.injEq, Prod.mk.injEq]
    constructor
    · rintro ⟨rfl, rfl, rfl, rfl⟩
      simp
    · rintro ⟨⟨⟨rfl, rfl⟩, _⟩, rfl, rfl⟩
      simp
  · rename_i hmany
    constructor
    · intro h
      cases h
    · rintro ⟨h, _⟩
      exact absurd h (hmany _ _)

/-- A probe is unresolved, and not ambiguous, exactly when no candidate is loaded. -/
theorem probe_unresolved :
    (∃ reason, st.probe names anchor = .unresolved reason) ↔
      ∀ d ∈ names, d ≠ "" → ¬ st.IsLoaded d := by
  rw [← hits_eq_nil, probe_eq]
  split
  · rename_i h
    simp [h]
  · rename_i name' archive' h
    simp [h]
  · rename_i hnone _
    constructor
    · rintro ⟨reason, h⟩
      cases h
    · intro h
      exact absurd h hnone

/-- The exactly-one rule of a probe. -/
theorem probe_names (anchor : Option String) :
    (∃ t, st.probe names anchor = .resolved t ∧ t.name = c) ↔ st.OnlyLoaded names c := by
  constructor
  · rintro ⟨t, h, rfl⟩
    exact (probe_resolved.mp h).1.1
  · intro h
    obtain ⟨archive, hat⟩ := h.loaded
    exact ⟨⟨archive, c, anchor, none⟩, probe_resolved.mpr ⟨⟨h, hat⟩, rfl, rfl⟩, rfl⟩

theorem probe_filter (st : Setting) (names : List String) (anchor : Option String) :
    st.probe (names.filter (· != "")) anchor = st.probe names anchor := by
  have hsame : distinctNames (names.filter (· != "")) = distinctNames names := by
    simp only [distinctNames, List.filter_filter, Bool.and_self]
  simp only [probe, hsame]

theorem bindingsFor_isEmpty (t : ImportTable) (simple : String) :
    (t.bindingsFor simple).isEmpty = true ↔
      ∀ d ∈ t.declarations, d.isSingleType = true → d.simple ≠ simple := by
  simp only [ImportTable.bindingsFor, ImportTable.bindings, List.isEmpty_iff, List.filter_eq_nil_iff,
    List.mem_map, List.mem_filter, beq_iff_eq]
  constructor
  · intro h d hd hsingle
    exact h ⟨d.simple, d.internal⟩ ⟨d, ⟨hd, hsingle⟩, rfl⟩
  · rintro h b ⟨d, ⟨hd, hsingle⟩, rfl⟩
    exact h d hd hsingle

theorem empty_not_typeCandidate (st : Setting) (name : TypeName) : "" ∉ st.typeCandidates name := by
  intro h
  exact (mem_distinctNames.mp h).2 rfl

theorem empty_not_secondaryCandidate (st : Setting) (here : Surroundings) (name : TypeName) :
    "" ∉ st.secondaryCandidates here name := by
  intro h
  exact (mem_distinctNames.mp h).2 rfl

/-- The class that a type name stands for. It is the only loaded one that imports and the language's
own package offer, or else, where they offer none and no import of one class binds the first segment
of the name, the only loaded one among the secondary candidates. -/
def StandsFor (st : Setting) (here : Surroundings) (name : TypeName) (c : String) : Prop :=
  st.OnlyLoaded (st.typeCandidates name) c ∨
    (∀ d ∈ st.typeCandidates name, ¬ st.IsLoaded d) ∧
      (∀ d ∈ st.imports.declarations, d.isSingleType = true → d.simple ≠ name.root) ∧
      st.OnlyLoaded (st.secondaryCandidates here name) c

/-- What a type name stands for depends on the classes around it and on no variable. -/
theorem standsFor_congr {here here' : Surroundings} (h : here'.classes = here.classes)
    (name : TypeName) : st.StandsFor here' name = st.StandsFor here name := by
  funext c
  simp only [StandsFor, secondaryCandidates, h]

theorem OnlyLoaded.not_none (h : st.OnlyLoaded names c) : ¬ ∀ d ∈ names, ¬ st.IsLoaded d :=
  fun hnone => hnone c h.mem h.loaded

/-- The two tiers of candidates resolve a type name to what it stands for. -/
theorem resolveType_names {here : Surroundings} {name : TypeName} :
    (∃ t, st.resolveType here name = .resolved t ∧ t.name = c) ↔ st.StandsFor here name c := by
  have hnone : (∃ reason, st.probe (st.typeCandidates name) (some name.simple) = .unresolved reason) ↔
      ∀ d ∈ st.typeCandidates name, ¬ st.IsLoaded d := by
    rw [probe_unresolved]
    constructor
    · intro h d hd
      refine h d hd ?_
      rintro rfl
      exact st.empty_not_typeCandidate name hd
    · intro h d hd _
      exact h d hd
  unfold resolveType StandsFor
  split
  · rename_i reason hp
    have hnot := hnone.mp ⟨reason, hp⟩
    have hfirst : ¬ st.OnlyLoaded (st.typeCandidates name) c := fun h => h.not_none hnot
    split
    · rename_i hempty
      have hfree := (bindingsFor_isEmpty _ _).mp hempty
      rw [probe_names]
      exact ⟨fun h => .inr ⟨hnot, hfree, h⟩, fun h => (h.resolve_left hfirst).2.2⟩
    · rename_i hbound
      constructor
      · rintro ⟨t, h, _⟩
        cases h
      · intro h
        exact absurd ((bindingsFor_isEmpty _ _).mpr (h.resolve_left hfirst).2.1) hbound
  · rename_i hp
    rw [probe_names]
    refine ⟨.inl, ?_⟩
    rintro (h | ⟨hnot, _⟩)
    · exact h
    · obtain ⟨reason, hr⟩ := hnone.mpr hnot
      exact absurd hr (hp reason)

end Setting
end SourceLinks
