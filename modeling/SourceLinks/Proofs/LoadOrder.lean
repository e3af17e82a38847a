import SourceLinks.Proofs.Agreement
import SourceLinks.Proofs.Superclasses

namespace SourceLinks

namespace Corpus
variable {c c' : Corpus} {own name id id' : String}

/-- No two archives have the same id. -/
def Distinct (c : Corpus) : Prop :=
  (c.archives.map Archive.id).Nodup

theorem add_ok {a : Archive} (h : c.add a = .ok c') (hc : c.Distinct) :
    c'.archives = c.archives ++ [a] ∧ c'.Distinct := by
  unfold add at h
  split at h
  · cases h
  · rename_i hfree
    cases h
    have hnew : ∀ b ∈ c.archives, b.id ≠ a.id := by
      simpa [get?] using hfree
    refine ⟨rfl, ?_⟩
    rw [Distinct, List.map_append, List.nodup_append]
    refine ⟨hc, List.nodup_singleton _, ?_⟩
    rintro x hx y hy rfl
    obtain ⟨b, hb, rfl⟩ := List.mem_map.mp hx
    exact hnew b hb (List.mem_singleton.mp hy)

theorem addAll_ok {archives : List Archive} (h : archives.foldlM add c = .ok c') (hc : c.Distinct) :
    c'.archives = c.archives ++ archives ∧ c'.Distinct := by
  induction archives generalizing c with
  | nil =>
    cases h
    exact ⟨(List.append_nil _).symm, hc⟩
  | cons a archives ih =>
    rw [List.foldlM_cons] at h
    cases ha : c.add a with
    | error why =>
      rw [ha] at h
      cases h
    | ok next =>
      rw [ha] at h
      obtain ⟨hnext, hdistinct⟩ := add_ok ha hc
      obtain ⟨hall, hc'⟩ := ih h hdistinct
      exact ⟨by rw [hall, hnext, List.append_assoc, List.singleton_append], hc'⟩

/-- What is loaded stands in load order, each id once. -/
theorem ofList_ok {archives : List Archive} (h : ofList archives = .ok c) :
    c.archives = archives ∧ c.Distinct :=
  addAll_ok h List.nodup_nil

theorem get_eq_some (hc : c.Distinct) {a : Archive} :
    c.get? id = some a ↔ a ∈ c.archives ∧ a.id = id := by
  constructor
  · intro h
    exact ⟨List.mem_of_find?_eq_some h, get_id h⟩
  · rintro ⟨ha, rfl⟩
    obtain ⟨b, hb⟩ : ∃ b, c.get? a.id = some b := by
      rw [← Option.isSome_iff_exists, get?, List.find?_isSome]
      exact ⟨a, ha, beq_self_eq_true _⟩
    have hsame : b = a := List.inj_on_of_nodup_map hc (List.mem_of_find?_eq_some hb) ha (get_id hb)
    rw [hb, hsame]

/-- An archive's place in the load order does not matter to who asks for it by its id. -/
theorem get_perm (hperm : c.archives.Perm c'.archives) (hc : c.Distinct) (id : String) :
    c'.get? id = c.get? id := by
  have hc' : c'.Distinct := (hperm.map Archive.id).nodup_iff.mp hc
  refine Option.ext fun a => ?_
  rw [get_eq_some hc', get_eq_some hc, hperm.mem_iff]

theorem answers_perm (hperm : c.archives.Perm c'.archives) (hc : c.Distinct) :
    c'.answers = c.answers := by
  funext archive name
  rw [answers_eq, answers_eq, get_perm hperm hc]

theorem chainBound_perm (hperm : c.archives.Perm c'.archives) : c'.chainBound = c.chainBound := by
  have hlength : c.entryNames.length = c'.entryNames.length :=
    (hperm.flatMap_right Archive.entryNames).length_eq
  rw [chainBound_eq, chainBound_eq, hlength]

/-- A class that two archives hold is also held by the archive of this id. -/
def OwnsDuplicates (c : Corpus) (own : String) : Prop :=
  ∀ a ∈ c.archives, ∀ b ∈ c.archives, a.id ≠ b.id → ∀ name,
    a.hasClass name = true → b.hasClass name = true →
      ∃ o ∈ c.archives, o.id = own ∧ o.hasClass name = true

/-- The archive of this id holds the class, and so it is the preferred one if that holds the class. -/
structure Supplies (c : Corpus) (own name id : String) : Prop where
  holds : ∃ a ∈ c.archives, a.id = id ∧ a.hasClass name = true
  preferred : (∃ o ∈ c.archives, o.id = own ∧ o.hasClass name = true) → id = own

theorem Supplies.perm (hperm : c.archives.Perm c'.archives) (h : c.Supplies own name id) :
    c'.Supplies own name id := by
  obtain ⟨⟨a, ha, hid⟩, hpreferred⟩ := h
  refine ⟨⟨a, hperm.subset ha, hid⟩, ?_⟩
  rintro ⟨o, ho, hown⟩
  exact hpreferred ⟨o, hperm.symm.subset ho, hown⟩

theorem Supplies.unique (hdup : c.OwnsDuplicates own) (h : c.Supplies own name id)
    (h' : c.Supplies own name id') : id' = id := by
  by_contra hne
  obtain ⟨a, ha, haid, hholds⟩ := h.holds
  obtain ⟨b, hb, hbid, hholds'⟩ := h'.holds
  have hdistinct : a.id ≠ b.id := by
    rw [haid, hbid]
    exact fun h => hne h.symm
  have howned := hdup a ha b hb hdistinct name hholds hholds'
  exact hne ((h'.preferred howned).trans (h.preferred howned).symm)

theorem searchOrder_own (hown : own ≠ "") :
    c.searchOrder (some own) =
      match c.get? own with
      | none => c.archives
      | some first => first :: c.archives.filter fun a => a.id != own := by
  unfold searchOrder
  split
  · rename_i h
    cases h
  · rename_i h
    exact absurd (Option.some.inj h) hown
  · rename_i h
    cases h
    rfl

/-- Every archive is searched. -/
theorem searchOrder_complete (hown : own ≠ "") (hc : c.Distinct) {a : Archive} (ha : a ∈ c.archives) :
    a ∈ c.searchOrder (some own) := by
  rw [searchOrder_own hown]
  cases hget : c.get? own with
  | none => exact ha
  | some first =>
    by_cases hid : a.id = own
    · have hsame := (get_eq_some hc).mpr ⟨ha, hid⟩
      cases hget.symm.trans hsame
      exact List.mem_cons_self
    · exact List.mem_cons_of_mem _ (List.mem_filter.mpr ⟨ha, by simpa using hid⟩)

/-- A lookup names the archive that supplies the class. -/
theorem supplies_of_lookup (hown : own ≠ "") (hc : c.Distinct)
    (h : c.lookup? name (some own) = some id) : c.Supplies own name id := by
  refine ⟨holds_of_lookup h, ?_⟩
  rintro ⟨o, ho, hid, hholds⟩
  have hget : c.get? own = some o := (get_eq_some hc).mpr ⟨ho, hid⟩
  rw [lookup?, searchOrder_own hown, hget] at h
  simp only [List.find?_cons, hholds, Option.map_some, Option.some.injEq] at h
  rw [← h, hid]

theorem lookup_of_holds (hown : own ≠ "") (hc : c.Distinct) {a : Archive} (ha : a ∈ c.archives)
    (hholds : a.hasClass name = true) : ∃ id, c.lookup? name (some own) = some id := by
  have hsome : ((c.searchOrder (some own)).find? fun a => a.hasClass name).isSome = true := by
    rw [List.find?_isSome]
    exact ⟨a, searchOrder_complete hown hc ha, hholds⟩
  obtain ⟨b, hb⟩ := Option.isSome_iff_exists.mp hsome
  exact ⟨b.id, by rw [lookup?, hb, Option.map_some]⟩

/-- Where the preferred archive holds all duplicates, each class has one archive to come from. -/
theorem lookup_eq_some (hown : own ≠ "") (hc : c.Distinct) (hdup : c.OwnsDuplicates own) :
    c.lookup? name (some own) = some id ↔ c.Supplies own name id := by
  refine ⟨supplies_of_lookup hown hc, fun h => ?_⟩
  obtain ⟨a, ha, _, hholds⟩ := h.holds
  obtain ⟨found, hfound⟩ := lookup_of_holds hown hc ha hholds
  rw [hfound, Supplies.unique hdup h (supplies_of_lookup hown hc hfound)]

theorem OwnsDuplicates.perm (hperm : c.archives.Perm c'.archives) (h : c.OwnsDuplicates own) :
    c'.OwnsDuplicates own := by
  intro a ha b hb hne name hholds hholds'
  obtain ⟨o, ho, howned⟩ :=
    h a (hperm.symm.subset ha) b (hperm.symm.subset hb) hne name hholds hholds'
  exact ⟨o, hperm.subset ho, howned⟩

theorem lookup_perm (hperm : c.archives.Perm c'.archives) (hc : c.Distinct) (hown : own ≠ "")
    (hdup : c.OwnsDuplicates own) (name : String) :
    c'.lookup? name (some own) = c.lookup? name (some own) := by
  have hc' : c'.Distinct := (hperm.map Archive.id).nodup_iff.mp hc
  refine Option.ext fun id => ?_
  rw [lookup_eq_some hown hc' (hdup.perm hperm), lookup_eq_some hown hc hdup]
  exact ⟨.perm hperm.symm, .perm hperm⟩

end Corpus

namespace Setting

/-- The same pass over other archives. -/
def withCorpus (st : Setting) (c : Corpus) : Setting :=
  { st with corpus := c }

theorem agrees_perm {st : Setting} {c : Corpus} (hperm : st.corpus.archives.Perm c.archives)
    (hc : st.corpus.Distinct) (hown : st.source.document.archive ≠ "")
    (hdup : st.corpus.OwnsDuplicates st.source.document.archive) : st.Agrees (st.withCorpus c) :=
  ⟨⟨rfl, Corpus.lookup_perm hperm hc hown hdup, Corpus.chainBound_perm hperm⟩, rfl⟩

/-- Load order matters only for duplicated classes.

Let the same archives be loaded in two orders, and let every class that two of them hold be held by
the document's own archive, whose id is not empty. Then a pass asks the same, and ends with the same
table, the same tally and the same of all else that it knows, cancelled or not. -/
theorem load_order_is_immaterial (st : Setting) (archives archives' : List Archive) (c : Corpus)
    (hload : Corpus.ofList archives = .ok st.corpus) (hload' : Corpus.ofList archives' = .ok c)
    (hperm : archives.Perm archives') (hown : st.source.document.archive ≠ "")
    (hdup : st.corpus.OwnsDuplicates st.source.document.archive) (cancelled : Nat → Bool) :
    (st.withCorpus c).resolve cancelled = st.resolve cancelled ∧
    (((st.withCorpus c).resolve cancelled).run c).1 = ((st.resolve cancelled).run st.corpus).1 := by
  obtain ⟨harchives, hdistinct⟩ := Corpus.ofList_ok hload
  obtain ⟨harchives', _⟩ := Corpus.ofList_ok hload'
  have hcorpus : st.corpus.archives.Perm c.archives := by
    rw [harchives, harchives']
    exact hperm
  have hsame : (st.withCorpus c).resolve cancelled = st.resolve cancelled :=
    (agrees_perm hcorpus hdistinct hown hdup).resolve rfl cancelled
  refine ⟨hsame, ?_⟩
  rw [hsame, Inquiry.run_answered, Inquiry.run_answered, Corpus.answers_perm hcorpus hdistinct]

/-- Two archives that both hold a class, one of them the document's own. The other also holds a class
that it does not share. -/
theorem load_order_is_immaterial_for_two :
    let set := Node.plain "type_identifier" 0 3 []
    let map := Node.plain "scoped_type_identifier" 4 11
      [.plain "type_identifier" 4 7 [], .plain "type_identifier" 8 11 []]
    let lib : Archive :=
      { id := "lib.jar", entries := ⟨[("lib/Map.class", []), ("demo/Set.class", [])]⟩ }
    let own : Archive := { id := "demo.jar", entries := ⟨[("demo/Set.class", [])]⟩ }
    let st := ofText [lib, own] "Set lib.Map" (.plain "program" 0 11 [set, map])
    let links : LinkTable := [⟨0, 3, 1, 1, "demo.jar", "demo/Set", some "Set", "type"⟩,
      ⟨4, 11, 1, 5, "lib.jar", "lib/Map", some "Map", "type"⟩]
    ((st.resolve fun _ => false).run st.corpus).1.1.links = links ∧
      (((st.withCorpus ⟨[own, lib]⟩).resolve fun _ => false).run ⟨[own, lib]⟩).1.1.links = links := by
  intro set map lib own st links
  have hdup : st.corpus.OwnsDuplicates "demo.jar" := by
    intro a ha b hb hne name hholds hholds'
    have hown : a = own ∨ b = own := by
      simp only [st, ofText, List.mem_cons, List.not_mem_nil, or_false] at ha hb
      rcases ha with rfl | rfl
      · rcases hb with rfl | rfl
        · exact absurd rfl hne
        · exact .inr rfl
      · exact .inl rfl
    rcases hown with rfl | rfl
    · exact ⟨_, ha, rfl, hholds⟩
    · exact ⟨_, hb, rfl, hholds'⟩
  obtain ⟨_, hrun⟩ := st.load_order_is_immaterial [lib, own] [own, lib] ⟨[own, lib]⟩ rfl rfl
    (.swap own lib []) (by decide) hdup fun _ => false
  rw [hrun]
  have hlinks : ((st.resolve fun _ => false).run st.corpus).1.1.links = links := by decide +kernel
  exact ⟨hlinks, hlinks⟩

end Setting
end SourceLinks
