import SourceLinks.Files.Path
import SourceLinks.Proofs.LoadOrder

namespace SourceLinks

namespace Archive
variable {order before after : List Archive} {name : String} {a b : Archive} {bytes : List UInt8}

/-- Of archives in this order, this is the first that holds the class. -/
structure FirstHolder (order : List Archive) (name : String) (a : Archive) (bytes : List UInt8) :
    Prop where
  held : a.classBytes? name = some bytes
  first : ∃ before after, order = before ++ a :: after ∧ ∀ b ∈ before, b.classBytes? name = none

theorem firstHolder_iff : FirstHolder order name a bytes ↔
    order.findSome? (fun b => (b.classBytes? name).map fun bytes => (b, bytes)) = some (a, bytes) := by
  rw [List.findSome?_eq_some_iff]
  constructor
  · intro h
    obtain ⟨before, after, horder, hnone⟩ := h.first
    refine ⟨before, a, after, horder, by rw [h.held, Option.map_some], ?_⟩
    intro b hb
    rw [hnone b hb, Option.map_none]
  · intro h
    obtain ⟨before, b, after, horder, hheld, hnone⟩ := h
    obtain ⟨bytes, hbytes, hpair⟩ := Option.map_eq_some_iff.mp hheld
    cases hpair
    refine ⟨hbytes, before, after, horder, ?_⟩
    intro b hb
    exact Option.map_eq_none_iff.mp (hnone b hb)

/-- Where an archive that does not hold the class stands makes no difference. -/
theorem firstHolder_middle (hb : b.classBytes? name = none) :
    FirstHolder (before ++ b :: after) name a bytes ↔
      FirstHolder (b :: (before ++ after)) name a bytes := by
  rw [firstHolder_iff, firstHolder_iff]
  simp [List.findSome?_append, hb]

end Archive

namespace Corpus
variable {c : Corpus} {name : String} {prefer : Option String} {a b : Archive}
  {bytes bytes' : List UInt8}

/-- Both lookups of a class take it from this archive. -/
structure TakenFrom (c : Corpus) (name : String) (prefer : Option String) (a : Archive)
    (bytes : List UInt8) : Prop where
  lookup : c.lookup? name prefer = some a.id
  find : c.find? name prefer = some (a.id, bytes)

/-- Both lookups of a class find nothing. -/
structure NotFound (c : Corpus) (name : String) (prefer : Option String) : Prop where
  lookup : c.lookup? name prefer = none
  find : c.find? name prefer = none

theorem takenFrom_first (h : Archive.FirstHolder (c.searchOrder prefer) name a bytes) :
    c.TakenFrom name prefer a bytes := by
  obtain ⟨hheld, before, after, horder, hnone⟩ := h
  refine ⟨?_, ?_⟩
  · have hfound : (c.searchOrder prefer).find? (fun a => a.hasClass name) = some a := by
      rw [List.find?_eq_some_iff_append]
      refine ⟨by simp [Archive.hasClass, hheld], before, after, horder, ?_⟩
      intro b hb
      simp [Archive.hasClass, hnone b hb]
    rw [lookup?, hfound, Option.map_some]
  · rw [find?, List.findSome?_eq_some_iff]
    refine ⟨before, a, after, horder, by rw [hheld, Option.map_some], ?_⟩
    intro b hb
    rw [hnone b hb, Option.map_none]

theorem notFound_of_lacking (h : ∀ a ∈ c.searchOrder prefer, a.classBytes? name = none) :
    c.NotFound name prefer := by
  refine ⟨?_, ?_⟩
  · rw [lookup?, Option.map_eq_none_iff, List.find?_eq_none]
    intro a ha
    simp [Archive.hasClass, h a ha]
  · rw [find?, List.findSome?_eq_none_iff]
    intro a ha
    rw [h a ha, Option.map_none]

/-- A search comes to the first holder in its order, if there is one. -/
theorem search_outcome (c : Corpus) (name : String) (prefer : Option String) :
    (∃ a bytes, Archive.FirstHolder (c.searchOrder prefer) name a bytes ∧
      c.TakenFrom name prefer a bytes) ∨
    ((∀ a ∈ c.searchOrder prefer, a.classBytes? name = none) ∧ c.NotFound name prefer) := by
  cases hfound : (c.searchOrder prefer).findSome? fun b =>
      (b.classBytes? name).map fun bytes => (b, bytes) with
  | some found =>
    have hfirst := Archive.firstHolder_iff.mpr hfound
    exact .inl ⟨found.1, found.2, hfirst, takenFrom_first hfirst⟩
  | none =>
    have hlacks : ∀ a ∈ c.searchOrder prefer, a.classBytes? name = none := by
      intro a ha
      exact Option.map_eq_none_iff.mp (List.findSome?_eq_none_iff.mp hfound a ha)
    exact .inr ⟨hlacks, notFound_of_lacking hlacks⟩

/-- The search goes by load order, unless it prefers a loaded archive whose id is not empty. That one
then comes first, and the others follow as they stand. -/
theorem searchOrder_cases (hc : c.Distinct) (prefer : Option String) :
    (c.searchOrder prefer = c.archives ∧ ∀ a ∈ c.archives, prefer = some a.id → a.id = "") ∨
    ∃ before first after, c.archives = before ++ first :: after ∧ prefer = some first.id ∧
      first.id ≠ "" ∧ c.searchOrder prefer = first :: (before ++ after) := by
  match prefer with
  | none => exact .inl ⟨rfl, by simp⟩
  | some own =>
    by_cases hown : own = ""
    · subst hown
      exact .inl ⟨rfl, fun a _ h => (Option.some.inj h).symm⟩
    · rw [searchOrder_own hown]
      cases hget : c.get? own with
      | none =>
        refine .inl ⟨rfl, ?_⟩
        intro a ha heq
        rw [(get_eq_some hc).mpr ⟨ha, (Option.some.inj heq).symm⟩] at hget
        cases hget
      | some first =>
        obtain ⟨hmem, rfl⟩ := (get_eq_some hc).mp hget
        obtain ⟨before, after, horder⟩ := List.append_of_mem hmem
        rw [Distinct, horder, List.map_append, List.map_cons, List.nodup_middle, ← List.map_append,
          List.nodup_cons] at hc
        have hothers : ∀ b ∈ before ++ after, (b.id != first.id) = true := by
          intro b hb
          rw [bne_iff_ne]
          exact fun heq => hc.1 (heq ▸ List.mem_map_of_mem hb)
        refine .inr ⟨before, first, after, horder, rfl, hown, ?_⟩
        simp only
        rw [horder, List.filter_append, List.filter_cons_of_neg (by simp), ← List.filter_append,
          List.filter_eq_self.mpr hothers]

theorem searchOrder_perm (hc : c.Distinct) (prefer : Option String) :
    (c.searchOrder prefer).Perm c.archives := by
  rcases searchOrder_cases hc prefer with ⟨horder, -⟩ | ⟨before, first, after, harchives, -, -, horder⟩
  · rw [horder]
  · rw [horder, harchives]
    exact List.perm_middle.symm

theorem eq_of_takenFrom (hc : c.Distinct) (ha : a ∈ c.archives) (hb : b ∈ c.archives)
    (h : c.TakenFrom name prefer a bytes) (h' : c.TakenFrom name prefer b bytes') :
    a = b ∧ bytes = bytes' := by
  have hpair := Option.some.inj (h.find.symm.trans h'.find)
  exact ⟨List.inj_on_of_nodup_map hc ha hb (congrArg Prod.fst hpair), congrArg Prod.snd hpair⟩

theorem takenFrom_preferred (hc : c.Distinct) (ha : a ∈ c.archives) (hname : a.id ≠ "")
    (hheld : a.classBytes? name = some bytes) : c.TakenFrom name (some a.id) a bytes := by
  apply takenFrom_first
  rcases searchOrder_cases hc (some a.id) with
    ⟨-, hnameless⟩ | ⟨before, first, after, harchives, hid, -, horder⟩
  · exact absurd (hnameless a ha rfl) hname
  · have hfirst : first ∈ c.archives := by simp [harchives]
    have hsame : a = first := List.inj_on_of_nodup_map hc ha hfirst (Option.some.inj hid)
    rw [horder, hsame]
    exact ⟨hsame ▸ hheld, [], before ++ after, rfl, by simp⟩

/-- The lookups take the class from the first archive in load order that holds it, if there is one. -/
def GoesByLoadOrder (c : Corpus) (name : String) (prefer : Option String) : Prop :=
  (∃ a bytes, Archive.FirstHolder c.archives name a bytes ∧ c.TakenFrom name prefer a bytes) ∨
    (∀ a ∈ c.archives, a.classBytes? name = none) ∧ c.NotFound name prefer

theorem goesByLoadOrder (hc : c.Distinct)
    (h : prefer = some "" ∨ ∀ a ∈ c.archives, prefer = some a.id → a.classBytes? name = none) :
    c.GoesByLoadOrder name prefer := by
  have houtcome := c.search_outcome name prefer
  rcases searchOrder_cases hc prefer with
    ⟨horder, -⟩ | ⟨before, first, after, harchives, rfl, hname, horder⟩
  · rw [horder] at houtcome
    exact houtcome
  · have hfirst : first.classBytes? name = none := by
      rcases h with hempty | hlacks
      · exact absurd (Option.some.inj hempty) hname
      · exact hlacks first (by simp [harchives]) rfl
    -- The preferred archive lacks the class, so it may as well stand in its place in load order.
    rw [horder] at houtcome
    rw [GoesByLoadOrder, harchives]
    simp only [Archive.firstHolder_middle hfirst, List.perm_middle.mem_iff]
    exact houtcome

/-- An archive without a name supplies the classes that it is the first to hold. -/
theorem takenFrom_nameless (hc : c.Distinct) (ha : a ∈ c.archives)
    (hheld : a.classBytes? name = some bytes) :
    c.TakenFrom name (some "") a bytes ↔ Archive.FirstHolder c.archives name a bytes := by
  constructor
  · intro htaken
    have hload : c.GoesByLoadOrder name (some "") := goesByLoadOrder hc (.inl rfl)
    rcases hload with ⟨b, bytes', hfirst, hb⟩ | ⟨hlacks, -⟩
    · obtain ⟨before, after, harchives, -⟩ := hfirst.first
      obtain ⟨rfl, rfl⟩ := eq_of_takenFrom hc ha (by simp [harchives]) htaken hb
      exact hfirst
    · rw [hlacks a ha] at hheld
      cases hheld
  · intro hfirst
    apply takenFrom_first
    exact hfirst

/-- The own archive is searched first if its id is not empty.

Every archive is searched once. A class that the preferred archive holds is taken from it exactly if
its id is not empty or it is the first in load order to hold the class. If the preferred archive does
not hold the class, is not loaded or has the empty id, the first archive in load order that holds the
class is taken; nothing is found if there is none. -/
theorem own_archive_is_searched_first (c : Corpus) (hc : c.Distinct) (name : String)
    (prefer : Option String) :
    (c.searchOrder prefer).Perm c.archives ∧
    (∀ a ∈ c.archives, prefer = some a.id → ∀ bytes, a.classBytes? name = some bytes →
      (c.TakenFrom name prefer a bytes ↔
        a.id ≠ "" ∨ Archive.FirstHolder c.archives name a bytes)) ∧
    ((prefer = some "" ∨ ∀ a ∈ c.archives, prefer = some a.id → a.classBytes? name = none) →
      c.GoesByLoadOrder name prefer) := by
  refine ⟨searchOrder_perm hc prefer, ?_, goesByLoadOrder hc⟩
  intro a ha hprefer bytes hheld
  subst hprefer
  by_cases hname : a.id = ""
  · rw [hname, takenFrom_nameless hc ha hheld]
    simp
  · simp [hname, takenFrom_preferred hc ha hname hheld]

/-- Three archives that hold a class, the second of them preferred, and the one without a name. -/
theorem own_archive_is_searched_first_of_three :
    let held : Keyed (List UInt8) := ⟨[("demo/Main.class", [])]⟩
    let lib : Archive := { id := "lib.jar", entries := held }
    let own : Archive := { id := "demo.jar", entries := held }
    let c : Corpus := ⟨[lib, own, { id := "", entries := held }]⟩
    c.Distinct ∧ c.TakenFrom "demo/Main" (some "demo.jar") own [] ∧
      c.GoesByLoadOrder "demo/Main" (some "") := by
  intro held lib own c
  have hc : c.Distinct := by
    rw [Corpus.Distinct]
    decide
  obtain ⟨-, hown, -⟩ := c.own_archive_is_searched_first hc "demo/Main" (some "demo.jar")
  obtain ⟨-, -, hnameless⟩ := c.own_archive_is_searched_first hc "demo/Main" (some "")
  refine ⟨hc, (hown own (by simp [c]) rfl [] (by decide)).mpr (.inl (by decide)), hnameless (.inl rfl)⟩

/-- An archive of a directory that is named by a dot has the empty id. It is loaded and it holds the
class, but it is not searched first. -/
theorem nameless_archive_is_not_preferred :
    let lib : Archive := { id := "lib.jar", entries := ⟨[("demo/Main.class", [1])]⟩ }
    let own : Archive := { id := (Path.ofString ".").name, entries := ⟨[("demo/Main.class", [2])]⟩ }
    ∃ c, Corpus.ofList [lib, own] = .ok c ∧ c.get? own.id = some own ∧
      own.classBytes? "demo/Main" = some [2] ∧
      c.lookup? "demo/Main" (some own.id) = some "lib.jar" ∧
      c.find? "demo/Main" (some own.id) = some ("lib.jar", [1]) :=
  ⟨_, rfl, rfl, by decide, by decide, by decide⟩

end Corpus
end SourceLinks
