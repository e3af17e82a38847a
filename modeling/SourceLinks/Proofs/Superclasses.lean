import Mathlib.Data.List.Nodup
import Mathlib.Logic.Relation
import SourceLinks.Proofs.Answers
import SourceLinks.Proofs.Targets
import SourceLinks.Proofs.Turns

namespace SourceLinks

/-- A class in the archive that it is taken from. -/
structure Located where
  archive : String
  name : String
deriving DecidableEq

namespace Target

/-- The class of a target, whatever stands in it. -/
def located (t : Target) : Located := ⟨t.archive, t.name⟩

end Target

namespace Answers

/-- The structure of a class, if it can be read. -/
def structure? (answers : Answers) (c : Located) : Option ClassStructure :=
  match answers c.archive c.name with
  | .ok s => s
  | .error _ => none

/-- The class has a method of this name. -/
def Declares (answers : Answers) (method : String) (c : Located) : Prop :=
  ∃ s, answers.structure? c = some s ∧ ∃ m ∈ s.methods, m.name = method

/-- The methods of this name that the class has. -/
def methodsOf (answers : Answers) (method : String) (c : Located) : List Method :=
  ((answers.structure? c).map fun s => s.methodsNamed method).getD []

theorem mem_methodsOf {answers : Answers} {method : String} {c : Located} {m : Method} :
    m ∈ answers.methodsOf method c ↔
      ∃ s, answers.structure? c = some s ∧ m ∈ s.methods ∧ m.name = method := by
  unfold methodsOf
  cases answers.structure? c with
  | none => simp
  | some s => simp [ClassStructure.methodsNamed]

theorem methodsOf_eq_nil {answers : Answers} {method : String} {c : Located} :
    answers.methodsOf method c = [] ↔ ¬ answers.Declares method c := by
  rw [List.eq_nil_iff_forall_not_mem]
  simp only [mem_methodsOf, Declares]
  constructor
  · rintro h ⟨s, hs, m, hm, hname⟩
    exact h m ⟨s, hs, hm, hname⟩
  · rintro h m ⟨s, hs, hm, hname⟩
    exact h ⟨s, hs, m, hm, hname⟩

end Answers

/-- Every descriptor is read, in order, or none of the results counts. -/
theorem mapM_returnType {methods : List Method} {returns : List (Option String)} :
    (methods.mapM fun m => returnType (some m.descriptor)) = .ok returns ↔
      methods.map (fun m => returnType (some m.descriptor)) = returns.map .ok := by
  induction methods generalizing returns with
  | nil =>
    cases returns with
    | nil => simp [pure, Except.pure]
    | cons r rest => simp [pure, Except.pure]
  | cons m methods ih =>
    rw [List.mapM_cons]
    cases hm : returnType (some m.descriptor) with
    | error why => cases returns <;> simp [hm, bind, Except.bind]
    | ok first =>
      cases returns with
      | nil =>
        cases hrest : methods.mapM fun m => returnType (some m.descriptor) <;>
          simp [bind, Except.bind, pure, Except.pure]
      | cons r rest =>
        rw [List.map_cons, List.map_cons, List.cons.injEq, ← ih, hm]
        cases hrest : methods.mapM fun m => returnType (some m.descriptor) <;>
          simp [bind, Except.bind, pure, Except.pure]

/-- Methods have a class for common return exactly if each descriptor can be read and gives it. -/
theorem commonReturn_eq_some {methods : List Method} (hne : methods ≠ []) (r : String) :
    commonReturn methods = some r ↔
      ∀ m ∈ methods, returnType (some m.descriptor) = .ok (some r) := by
  constructor
  · intro h m hm
    unfold commonReturn at h
    split at h
    · rename_i first rest hall
      split at h
      · rename_i hsame
        subst h
        have hmem : returnType (some m.descriptor) ∈ (some r :: rest).map .ok := by
          rw [← mapM_returnType.mp hall]
          exact List.mem_map_of_mem hm
        obtain ⟨x, hx, hxm⟩ := List.mem_map.mp hmem
        rw [← hxm]
        rcases List.mem_cons.mp hx with rfl | hx
        · rfl
        · rw [beq_iff_eq.mp (List.all_eq_true.mp hsame x hx)]
      · cases h
    · cases h
  · intro h
    have hall : (methods.mapM fun m => returnType (some m.descriptor)) =
        .ok (methods.map fun _ => some r) := by
      rw [mapM_returnType, List.map_map]
      exact List.map_congr_left h
    obtain ⟨m, rest, rfl⟩ := List.exists_cons_of_ne_nil hne
    simp [commonReturn, hall]

namespace Corpus

/-- All entries of all archives. -/
def entryNames (c : Corpus) : List String :=
  c.archives.flatMap Archive.entryNames

theorem chainBound_eq (c : Corpus) : c.chainBound = c.entryNames.length + 1 := by
  have hsum : ∀ (archives : List Archive) (n : Nat),
      archives.foldl (fun bound a => bound + a.entries.size) n =
        (archives.flatMap Archive.entryNames).length + n := by
    intro archives
    induction archives with
    | nil => simp
    | cons a rest ih =>
      intro n
      have hsize : a.entryNames.length = a.entries.size := by
        simp [Archive.entryNames, Keyed.keys, Keyed.size]
      rw [List.foldl_cons, ih, List.flatMap_cons, List.length_append, hsize]
      omega
  exact hsum c.archives 1

/-- A class that is looked up successfully has an entry. -/
theorem entry_mem_of_lookup {c : Corpus} {name id : String} {prefer : Option String}
    (h : c.lookup? name prefer = some id) : ClassName.entry name ∈ c.entryNames := by
  obtain ⟨a, ha, _, hholds⟩ := holds_of_lookup h
  obtain ⟨bytes, hbytes⟩ := Option.isSome_iff_exists.mp hholds
  obtain ⟨before, after, hsplit, _⟩ := List.lookup_eq_some_iff.mp hbytes
  refine List.mem_flatMap.mpr ⟨a, ha, ?_⟩
  simp [Archive.entryNames, Keyed.keys, hsplit]

end Corpus

namespace Setting
variable {st : Setting} {answers : Answers} {method : String} {c d : Located} {seen : List String}
variable {chain : List Located} {owner t : Target} {here : Surroundings}

/-- The superclass that a class declares, in the archive that it is taken from. There is none above a
class that cannot be read or declares none, and none that is not loaded. -/
def super? (st : Setting) (answers : Answers) (c : Located) : Option Located :=
  match (answers.structure? c).bind ClassStructure.super with
  | none | some "" => none
  | some above => (st.locate? above).map fun archive => ⟨archive, above⟩

/-- The next class on the way up, on which the root class is the last. -/
def above? (st : Setting) (answers : Answers) (c : Located) : Option Located :=
  if c.name = ClassName.object then none else st.super? answers c

/-- The superclasses of a class, the class itself first, as far up as there is one whose name has not
been met. -/
inductive Lineage (st : Setting) (answers : Answers) : List String → Located → List Located → Prop where
  | ends {seen : List String} {c : Located}
      (h : ∀ d, st.above? answers c = some d → d.name ∈ c.name :: seen) : Lineage st answers seen c [c]
  | goes_up {seen : List String} {c d : Located} {chain : List Located}
      (hd : st.above? answers c = some d) (hnew : d.name ∉ c.name :: seen)
      (above : Lineage st answers (c.name :: seen) d chain) : Lineage st answers seen c (c :: chain)

theorem super_located (h : st.super? answers c = some d) :
    d.name ≠ "" ∧ st.locate? d.name = some d.archive := by
  unfold super? at h
  split at h
  · cases h
  · cases h
  · rename_i above hne _
    obtain ⟨archive, harchive, hd⟩ := Option.map_eq_some_iff.mp h
    cases hd
    exact ⟨hne, harchive⟩

theorem super_of_above (h : st.above? answers c = some d) : st.super? answers c = some d := by
  unfold above? at h
  split at h
  · cases h
  · exact h

/-- A class has one lineage only. -/
theorem Lineage.unique {other : List Located} (h : st.Lineage answers seen c chain)
    (h' : st.Lineage answers seen c other) : other = chain := by
  induction h generalizing other with
  | ends h =>
    cases h' with
    | ends => rfl
    | goes_up hd hnew => exact absurd (h _ hd) hnew
  | goes_up hd hnew _ ih =>
    cases h' with
    | ends h => exact absurd (h _ hd) hnew
    | goes_up hd' _ above =>
      cases hd.symm.trans hd'
      rw [ih above]

/-- Classes that are looked up and not met before are no more than there are entries. -/
theorem length_le_entryNames {names : List String} (hnodup : names.Nodup)
    (hloaded : ∀ n ∈ names, st.IsLoaded n) : names.length ≤ st.corpus.entryNames.length := by
  have hinj : Function.Injective ClassName.entry := by
    intro a b hab
    exact (String.append_left_inj _).mp hab
  rw [← List.length_map ClassName.entry]
  refine (hnodup.map hinj).length_le_of_subset ?_
  intro entry hentry
  obtain ⟨n, hn, rfl⟩ := List.mem_map.mp hentry
  obtain ⟨archive, hat⟩ := hloaded n hn
  exact Corpus.entry_mem_of_lookup hat

/-- The way up comes to an end, however the superclasses are declared. -/
theorem Lineage.exists (n : Nat) (hn : st.corpus.entryNames.length < seen.length + n)
    (hat : st.IsLoaded c.name) (hnew : c.name ∉ seen) (hnodup : seen.Nodup)
    (hloaded : ∀ m ∈ seen, st.IsLoaded m) : ∃ chain, st.Lineage answers seen c chain := by
  induction n generalizing seen c with
  | zero =>
    have hle := length_le_entryNames hnodup hloaded
    omega
  | succ n ih =>
    cases hup : st.above? answers c with
    | none =>
      refine ⟨[c], .ends ?_⟩
      intro d hd
      cases hup.symm.trans hd
    | some d =>
      by_cases hmet : d.name ∈ c.name :: seen
      · refine ⟨[c], .ends ?_⟩
        intro e he
        cases hup.symm.trans he
        exact hmet
      · have hd := (super_located (super_of_above hup)).2
        obtain ⟨chain, hchain⟩ : ∃ chain, st.Lineage answers (c.name :: seen) d chain :=
          ih (by rw [List.length_cons]; omega) ⟨_, hd⟩ hmet (List.nodup_cons.mpr ⟨hnew, hnodup⟩)
            (List.forall_mem_cons.mpr ⟨hat, hloaded⟩)
        exact ⟨c :: chain, .goes_up hup hmet hchain⟩

/-- A lineage is no longer than there are entries. -/
theorem Lineage.length_le (h : st.Lineage answers seen c chain) (hat : st.IsLoaded c.name)
    (hnew : c.name ∉ seen) (hnodup : seen.Nodup) (hloaded : ∀ m ∈ seen, st.IsLoaded m) :
    seen.length + chain.length ≤ st.corpus.entryNames.length := by
  induction h with
  | @ends seen c _ =>
    have hle := length_le_entryNames (List.nodup_cons.mpr ⟨hnew, hnodup⟩)
      (List.forall_mem_cons.mpr ⟨hat, hloaded⟩)
    simp only [List.length_cons, List.length_nil] at hle ⊢
    omega
  | goes_up hd hmet _ ih =>
    have hnext := ih ⟨_, (super_located (super_of_above hd)).2⟩ hmet
      (List.nodup_cons.mpr ⟨hnew, hnodup⟩) (List.forall_mem_cons.mpr ⟨hat, hloaded⟩)
    simp only [List.length_cons] at hnext ⊢
    omega

/-- The method of a class, if it has one of this name. -/
def declared? (answers : Answers) (method : String) (c : Located) : Option Target :=
  let methods := answers.methodsOf method c
  if methods.isEmpty then none else some ⟨c.archive, c.name, some method, commonReturn methods⟩

/-- One step of the search, for a class that does not make the reader crash. -/
theorem declaringFrom_succ {s : Option ClassStructure} (hc : answers c.archive c.name = .ok s)
    (bound : Nat) (seen : List String) :
    (st.declaringFrom method (bound + 1) seen c.archive c.name).answered answers =
      if c.name ∈ seen then .ok none
      else match declared? answers method c, st.above? answers c with
        | some t, _ => .ok (some t)
        | none, none => .ok none
        | none, some d =>
          (st.declaringFrom method bound (c.name :: seen) d.archive d.name).answered answers := by
  have hs : answers.structure? c = s := by simp [Answers.structure?, hc]
  have hask : (Attempt.structureOf c.archive c.name).answered answers = .ok s := hc
  rw [declaringFrom]
  split
  · rfl
  rw [Attempt.answered_bind_ok hask]
  cases s with
  | none => simp [declared?, Answers.methodsOf, above?, super?, hs]
  | some s =>
    simp only [declared?, Answers.methodsOf, above?, super?, hs, Option.map_some, Option.getD_some,
      Option.bind_some]
    cases hm : (s.methodsNamed method).isEmpty with
    | false => simp
    | true =>
      simp only [Bool.not_true, Bool.false_eq_true, ↓reduceIte]
      by_cases ho : c.name = ClassName.object
      · simp [ho]
      · simp only [ho, ↓reduceIte]
        generalize s.super = declared
        split
        · simp
        · simp
        · rename_i above hne
          rcases (st.locate? above).eq_none_or_eq_some with hat | ⟨archive, hat⟩ <;> simp [hat]

/-- A name that was met ends the search. -/
theorem declaringFrom_met (h : c.name ∈ seen) (bound : Nat) :
    (st.declaringFrom method bound seen c.archive c.name).answered answers = .ok none := by
  cases bound with
  | zero => rfl
  | succ bound => simp [declaringFrom, h]

/-- With enough steps left, the search gives the first method of the lineage. -/
theorem Lineage.search (h : st.Lineage answers seen c chain) (hnew : c.name ∉ seen)
    (hsound : ∀ archive name, ∃ s, answers archive name = .ok s) (bound : Nat)
    (hbound : chain.length ≤ bound) :
    (st.declaringFrom method bound seen c.archive c.name).answered answers =
      .ok (chain.findSome? (declared? answers method)) := by
  induction h generalizing bound with
  | @ends seen c hend =>
    obtain ⟨bound, rfl⟩ : ∃ b, bound = b + 1 := ⟨bound - 1, by simp at hbound; omega⟩
    obtain ⟨s, hs⟩ := hsound c.archive c.name
    rw [declaringFrom_succ hs, if_neg hnew, List.findSome?_singleton]
    cases declared? answers method c with
    | some t => rfl
    | none =>
      cases hup : st.above? answers c with
      | none => rfl
      | some d => exact declaringFrom_met (hend d hup) bound
  | @goes_up seen c d chain hd hmet _ ih =>
    obtain ⟨bound, rfl⟩ : ∃ b, bound = b + 1 := ⟨bound - 1, by simp at hbound; omega⟩
    obtain ⟨s, hs⟩ := hsound c.archive c.name
    rw [declaringFrom_succ hs, if_neg hnew, List.findSome?_cons, hd]
    cases declared? answers method c with
    | some t => rfl
    | none => exact ih hmet bound (by simpa using hbound)

/-- The first class of the lineage that has the method gives it; where none has, the owner is taken
for its class. -/
theorem locateMethod_answered (hsound : ∀ archive name, ∃ s, answers archive name = .ok s)
    (ho : st.Found owner) (method : String) :
    ∃ chain, st.Lineage answers [] owner.located chain ∧
      (st.locateMethod owner method).answered answers =
        .ok (.resolved ((chain.findSome? (declared? answers method)).getD
          ⟨owner.archive, owner.name, some method, none⟩)) := by
  obtain ⟨chain, hchain⟩ : ∃ chain, st.Lineage answers [] owner.located chain :=
    Lineage.exists (st.corpus.entryNames.length + 1) (by simp) ⟨_, ho.located⟩ (by simp)
      List.nodup_nil (by simp)
  refine ⟨chain, hchain, ?_⟩
  have hlen := hchain.length_le ⟨_, ho.located⟩ (by simp) List.nodup_nil (by simp)
  have hsearch : (st.declaring? owner method).answered answers =
      .ok (chain.findSome? (declared? answers method)) := by
    apply hchain.search (by simp) hsound
    rw [Corpus.chainBound_eq]
    simp only [List.length_nil] at hlen
    omega
  rw [locateMethod, Attempt.answered_bind_ok hsearch]
  cases chain.findSome? (declared? answers method) <;> rfl

/-- A class is above another if it is declared as its superclass, directly or through others. -/
def IsAbove (st : Setting) (answers : Answers) : Located → Located → Prop :=
  Relation.TransGen fun d c => st.super? answers c = some d

/-- No class is above itself. -/
def Acyclic (st : Setting) (answers : Answers) : Prop :=
  ∀ c, ¬ st.IsAbove answers c c

/-- A single name stands for its class where it is loaded. -/
theorem probe_one {name : String} (hne : name ≠ "") :
    st.probe [name] none = .resolved t ↔
      ((st.locate? name).map fun archive => Located.mk archive name) = some t.located ∧
        t.anchor = none ∧ t.returns = none := by
  rw [probe_resolved, Option.map_eq_some_iff]
  obtain ⟨archive, name', anchor, returns⟩ := t
  simp only [Target.located, Located.mk.injEq]
  constructor
  · rintro ⟨⟨honly, hat⟩, hrest⟩
    obtain rfl : name' = name := by simpa using honly.mem
    exact ⟨⟨archive, hat, rfl, rfl⟩, hrest⟩
  · rintro ⟨⟨archive', hat, rfl, rfl⟩, hrest⟩
    refine ⟨⟨⟨by simp, hne, ⟨_, hat⟩, ?_⟩, hat⟩, hrest⟩
    intro d hd _ _
    simpa using hd

/-- A call on the superclass is a call on the one that the enclosing class declares. -/
theorem superClass_answered (hsound : ∀ archive name, ∃ s, answers archive name = .ok s) :
    (st.superClass here).answered answers = .ok (.resolved t) ↔
      ∃ c : Located, here.enclosing.internal = some c.name ∧ st.locate? c.name = some c.archive ∧
        st.super? answers c = some t.located ∧ t.anchor = none ∧ t.returns = none := by
  unfold superClass
  cases hint : here.enclosing.internal with
  | none => simp
  | some internal =>
    simp only [Option.some.injEq]
    cases hat : st.locate? internal with
    | none =>
      simp only [Attempt.answered_pure, Except.ok.injEq, reduceCtorEq, false_iff]
      rintro ⟨c, rfl, hc, _⟩
      cases hat.symm.trans hc
    | some archive =>
      simp only
      obtain ⟨s, hs⟩ := hsound archive internal
      have hask : (Attempt.structureOf archive internal).answered answers = .ok s := hs
      rw [Attempt.answered_bind_ok hask]
      trans st.super? answers ⟨archive, internal⟩ = some t.located ∧ t.anchor = none ∧ t.returns = none
      · simp only [super?, Answers.structure?, hs]
        generalize s.bind ClassStructure.super = declared
        split
        · simp
        · simp
        · rename_i above hne
          simp only [Attempt.answered_pure, Except.ok.injEq, probe_one hne]
      · constructor
        · rintro ⟨hup, hrest⟩
          exact ⟨⟨archive, internal⟩, rfl, hat, hup, hrest⟩
        · rintro ⟨c, rfl, hc, hup, hrest⟩
          cases hat.symm.trans hc
          exact ⟨hup, hrest⟩

/-- The classes of a lineage other than its first are above it. -/
theorem Lineage.above (h : st.Lineage answers seen c chain) :
    ∀ d ∈ chain, d = c ∨ st.IsAbove answers d c := by
  induction h with
  | ends => simp
  | goes_up hd _ _ ih =>
    intro e he
    rcases List.mem_cons.mp he with rfl | he
    · exact .inl rfl
    · rcases ih e he with rfl | habove
      · exact .inr (.single (super_of_above hd))
      · exact .inr (habove.tail (super_of_above hd))

theorem Lineage.located (h : st.Lineage answers seen c chain)
    (hat : st.locate? c.name = some c.archive) : ∀ d ∈ chain, st.locate? d.name = some d.archive := by
  induction h with
  | ends => simpa using hat
  | goes_up hd _ _ ih =>
    exact List.forall_mem_cons.mpr ⟨hat, ih (super_located (super_of_above hd)).2⟩

/-- A class of the same name would be the same class, and so above itself. -/
theorem not_named_below (hacyclic : st.Acyclic answers) (hat : st.locate? c.name = some c.archive)
    (h : st.IsAbove answers d c) (hdat : st.locate? d.name = some d.archive) : d.name ≠ c.name := by
  intro hname
  obtain ⟨archive, name⟩ := c
  obtain ⟨archive', name'⟩ := d
  simp only at hname hat hdat
  subst hname
  cases hat.symm.trans hdat
  exact hacyclic _ h

/-- Standard readers never crash. -/
theorem sound_of_standard {corpus : Corpus} (h : ∀ a ∈ corpus.archives, a.reader = .standard)
    (archive name : String) : ∃ s, corpus.answers archive name = .ok s := by
  rw [Corpus.answers_eq]
  cases hget : corpus.get? archive with
  | none => exact ⟨none, rfl⟩
  | some a =>
    have hreader := h a (List.mem_of_find?_eq_some hget)
    obtain ⟨reading, hreading⟩ : ∃ reading, a.readClass name = .ok reading := by
      simp only [Archive.readClass, hreader]
      split
      · exact ⟨_, rfl⟩
      · split <;> exact ⟨_, rfl⟩
    simp only [Archive.structureOf, hreading]
    cases a.structures.get? name with
    | some kept => exact ⟨kept, rfl⟩
    | none => exact ⟨_, rfl⟩

theorem declared_eq_none : declared? answers method c = none ↔ ¬ answers.Declares method c := by
  rw [← Answers.methodsOf_eq_nil, declared?]
  simp [List.isEmpty_iff]

theorem declared_eq_some (h : declared? answers method c = some t) :
    answers.Declares method c ∧ t.located = c ∧ t.anchor = some method ∧
      ∀ r, t.returns = some r ↔ ∀ s, answers.structure? c = some s → ∀ m ∈ s.methods,
        m.name = method → returnType (some m.descriptor) = .ok (some r) := by
  have hdeclares : answers.Declares method c := by
    by_contra hnot
    rw [declared_eq_none.mpr hnot] at h
    cases h
  have hne : answers.methodsOf method c ≠ [] := fun hnil =>
    Answers.methodsOf_eq_nil.mp hnil hdeclares
  simp only [declared?, List.isEmpty_iff, hne, ↓reduceIte, Option.some.injEq] at h
  subst h
  refine ⟨hdeclares, rfl, rfl, ?_⟩
  intro r
  simp only [commonReturn_eq_some hne, Answers.mem_methodsOf]
  constructor
  · intro h s hs m hm hname
    exact h m ⟨s, hs, hm, hname⟩
  · rintro h m ⟨s, hs, hm, hname⟩
    exact h s hs m hm hname

/-- A method is found in the first class of the owner's lineage that has it.

Where no reader crashes, the search ends for every owner, along the one lineage that it has: up
from class to declared superclass, each in the archive that it is taken from, through the root class
at most, and no further than a class that cannot be read, a superclass that is missing or not loaded,
or a name met before. The method returns a class exactly if all descriptors of that name in its
class can be read and give the class. A method that the lineage does not have is taken for one of
the owner. A call on the superclass is one on the superclass that the enclosing class declares; unless
some class is above itself, the enclosing class is not in that one's lineage. -/
theorem methods_are_found_up_the_lineage (st : Setting)
    (hreaders : ∀ a ∈ st.corpus.archives, a.reader = .standard) :
    (∀ owner method, st.Found owner → ∃ chain t,
      st.Lineage st.corpus.answers [] owner.located chain ∧
      (∀ other, st.Lineage st.corpus.answers [] owner.located other → other = chain) ∧
      ((st.locateMethod owner method).run.run st.corpus).1 = .ok (.resolved t) ∧
      t.anchor = some method ∧
      ((∃ before c after, chain = before ++ c :: after ∧
          (∀ b ∈ before, ¬ st.corpus.answers.Declares method b) ∧
          st.corpus.answers.Declares method c ∧ t.located = c ∧
          ∀ r, t.returns = some r ↔ ∀ s, st.corpus.answers.structure? c = some s → ∀ m ∈ s.methods,
            m.name = method → returnType (some m.descriptor) = .ok (some r)) ∨
        (∀ c ∈ chain, ¬ st.corpus.answers.Declares method c) ∧
          t.located = owner.located ∧ t.returns = none)) ∧
    ∀ here t, ((st.superClass here).run.run st.corpus).1 = .ok (.resolved t) ↔
      ∃ c : Located, here.enclosing.internal = some c.name ∧ st.locate? c.name = some c.archive ∧
        st.super? st.corpus.answers c = some t.located ∧ t.anchor = none ∧ t.returns = none ∧
        (st.Acyclic st.corpus.answers → t.name ≠ c.name ∧
          ∀ chain, st.Lineage st.corpus.answers [] t.located chain → ∀ d ∈ chain, d.name ≠ c.name) := by
  have hsound := sound_of_standard hreaders
  constructor
  · intro owner method ho
    obtain ⟨chain, hchain, hcall⟩ := locateMethod_answered hsound ho method
    refine ⟨chain, _, hchain, fun other h => hchain.unique h, (Inquiry.run_answered _ _).trans hcall, ?_⟩
    cases hfirst : chain.findSome? (declared? st.corpus.answers method) with
    | none =>
      refine ⟨rfl, .inr ⟨?_, rfl, rfl⟩⟩
      intro c hc
      exact declared_eq_none.mp (List.findSome?_eq_none_iff.mp hfirst c hc)
    | some t =>
      obtain ⟨before, c, after, hsplit, hc, hbefore⟩ := List.findSome?_eq_some_iff.mp hfirst
      obtain ⟨hdeclares, hlocated, hanchor, hreturns⟩ := declared_eq_some hc
      refine ⟨hanchor, .inl ⟨before, c, after, hsplit, ?_, hdeclares, hlocated, hreturns⟩⟩
      intro b hb
      exact declared_eq_none.mp (hbefore b hb)
  · intro here t
    rw [Inquiry.run_answered]
    refine (superClass_answered hsound).trans ⟨?_, ?_⟩
    · rintro ⟨c, hint, hat, hup, hanchor, hreturns⟩
      refine ⟨c, hint, hat, hup, hanchor, hreturns, ?_⟩
      intro hacyclic
      refine ⟨not_named_below hacyclic hat (.single hup) (super_located hup).2, ?_⟩
      intro chain hchain d hd
      apply not_named_below hacyclic hat ?_ (hchain.located (super_located hup).2 d hd)
      rcases hchain.above d hd with rfl | habove
      · exact .single hup
      · exact habove.tail hup
    · rintro ⟨c, hint, hat, hup, hanchor, hreturns, _⟩
      exact ⟨c, hint, hat, hup, hanchor, hreturns⟩

/-- A class and its superclass in one archive. What the latter declares as its own superclass is not
loaded, so the way up ends there. -/
theorem methods_are_found_up_the_lineage_of_two :
    let st := ofText [Archive.pair] "" (.plain "program" 0 0 [])
    let answers := st.corpus.answers
    let main : Target := ⟨"demo.jar", "demo/Main", none, none⟩
    let base : Target := ⟨"demo.jar", "demo/Base", none, none⟩
    let here : Surroundings := { classes := [⟨some "demo/Main", some "Main"⟩] }
    st.Lineage answers [] main.located [main.located, base.located] ∧
      (∃ t, ((st.locateMethod main "next").run.run st.corpus).1 = .ok (.resolved t) ∧
        t.located = base.located ∧ t.returns = some "demo/Main") ∧
      ((st.superClass here).run.run st.corpus).1 = .ok (.resolved base) ∧
      st.Acyclic answers ∧ base.name ≠ "demo/Main" := by
  intro st answers main base here
  have hmain : answers.structure? main.located = some ⟨"demo/Main", some "demo/Base", []⟩ := by
    change Answers.structure? (Corpus.answers ⟨[Archive.pair]⟩) ⟨"demo.jar", "demo/Main"⟩ = _
    decide +kernel
  have hbase : answers.structure? base.located =
      some ⟨"demo/Base", some "java/lang/Object", [⟨"next", "()Ldemo/Main;"⟩]⟩ := by
    change Answers.structure? (Corpus.answers ⟨[Archive.pair]⟩) ⟨"demo.jar", "demo/Base"⟩ = _
    decide +kernel
  have hother : ∀ c, c ≠ main.located → c ≠ base.located → answers.structure? c = none := by
    intro c hm hb
    have hne : ∀ name, c ≠ ⟨"demo.jar", name⟩ → ¬ (c.archive = "demo.jar" ∧ c.name = name) := by
      rintro name hne ⟨ha, hn⟩
      exact hne (by rw [← ha, ← hn])
    have habsent : answers c.archive c.name = .ok none :=
      Corpus.answers_pair_absent (hne _ hm) (hne _ hb)
    simp only [Answers.structure?, habsent]
  have hup : st.super? answers main.located = some base.located := by
    simp only [super?, hmain]
    decide
  have htop : st.super? answers base.located = none := by
    simp only [super?, hbase]
    decide
  have honly : ∀ c d, st.super? answers c = some d → c = main.located ∧ d = base.located := by
    intro c d h
    by_cases hm : c = main.located
    · rw [hm, hup] at h
      exact ⟨hm, (Option.some.inj h).symm⟩
    by_cases hb : c = base.located
    · rw [hb, htop] at h
      cases h
    · simp [super?, hother c hm hb] at h
  have hacyclic : st.Acyclic answers := by
    have habove : ∀ c d, st.IsAbove answers d c → c = main.located ∧ d = base.located := by
      intro c d h
      induction h with
      | single h => exact honly _ _ h
      | tail _ h ih => exact absurd (ih.1.symm.trans (honly _ _ h).2) (by decide)
    intro c hc
    obtain ⟨h, h'⟩ := habove c c hc
    exact absurd (h.symm.trans h') (by decide)
  have hlineage : st.Lineage answers [] main.located [main.located, base.located] := by
    refine .goes_up (d := base.located) ?_ (by decide) (.ends ?_)
    · rw [above?, if_neg (by decide), hup]
    · intro d hd
      cases htop.symm.trans (super_of_above hd)
  have hreaders : ∀ a ∈ st.corpus.archives, a.reader = .standard := by
    simp [st, ofText, Archive.pair]
  have hsuper : ((st.superClass here).run.run st.corpus).1 = .ok (.resolved base) := by
    rw [Inquiry.run_answered]
    exact (superClass_answered (sound_of_standard hreaders)).mpr
      ⟨main.located, rfl, by decide, hup, rfl, rfl⟩
  obtain ⟨hmethods, hsupers⟩ := st.methods_are_found_up_the_lineage hreaders
  obtain ⟨chain, t, _, hunique, hrun, _, hcases⟩ := hmethods main "next" ⟨by decide, by decide⟩
  obtain ⟨c, hin, _, _, _, _, hbelow⟩ := (hsupers here base).mp hsuper
  refine ⟨hlineage, ⟨t, hrun, ?_⟩, hsuper, hacyclic, ?_⟩
  · have hnot : ¬ answers.Declares "next" main.located := by simp [Answers.Declares, hmain]
    have hdeclares : answers.Declares "next" base.located := by simp [Answers.Declares, hbase]
    rw [← hunique _ hlineage] at hcases
    rcases hcases with ⟨before, d, after, hsplit, _, hd, ht, hreturns⟩ | ⟨hnone, _⟩
    · have hmem : d ∈ [main.located, base.located] := by simp [hsplit]
      obtain rfl : d = base.located := by
        simp only [List.mem_cons, List.not_mem_nil, or_false] at hmem
        exact hmem.resolve_left fun h => hnot (h ▸ hd)
      refine ⟨ht, (hreturns _).mpr ?_⟩
      intro s hs
      cases hbase.symm.trans hs
      decide
    · exact absurd hdeclares (hnone base.located (by simp))
  · rw [Option.some.inj hin]
    exact (hbelow hacyclic).1

end Setting
end SourceLinks
