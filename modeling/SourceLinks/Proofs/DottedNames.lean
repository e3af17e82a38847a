import SourceLinks.Proofs.Lines
import SourceLinks.Proofs.SimpleNames

namespace SourceLinks

namespace Text

theorem joinWith_append (sep : List Char) {a b : List (List Char)} (ha : a ≠ []) (hb : b ≠ []) :
    joinWith sep (a ++ b) = joinWith sep a ++ sep ++ joinWith sep b := by
  obtain ⟨p, ps, rfl⟩ := List.exists_cons_of_ne_nil ha
  obtain ⟨q, qs, rfl⟩ := List.exists_cons_of_ne_nil hb
  rw [List.cons_append, joinWith_cons, joinWith_cons, joinWith_cons]
  simp only [List.flatMap_append, List.flatMap_cons, List.append_assoc]

theorem map_joinWith (f : Char → Char) (sep : List Char) (parts : List (List Char)) :
    (joinWith sep parts).map f = joinWith (sep.map f) (parts.map (List.map f)) := by
  cases parts with
  | nil => rfl
  | cons part parts =>
    rw [joinWith_cons, List.map_cons, joinWith_cons]
    simp only [List.map_append, List.map_flatMap, List.flatMap_map]

theorem mem_joinWith {sep : List Char} {parts : List (List Char)} {c : Char}
    (h : c ∈ joinWith sep parts) : c ∈ sep ∨ ∃ part ∈ parts, c ∈ part := by
  cases parts with
  | nil => simp [joinWith] at h
  | cons part parts =>
    rw [joinWith_cons, List.mem_append, List.mem_flatMap] at h
    rcases h with hin | ⟨other, hother, hin⟩
    · exact .inr ⟨part, by simp, hin⟩
    · refine (List.mem_append.mp hin).imp id fun hin => ⟨other, by simp [hother], hin⟩

theorem not_mem_afterLast (sep : Char) (cs : List Char) : sep ∉ afterLast sep cs := by
  intro h
  have hne := List.mem_takeWhile_imp (List.mem_reverse.mp h)
  simp at hne

/-- Rewriting a character that does not occur changes nothing. -/
theorem rewrite_of_not_mem {mark instead : Char} {cs : List Char} (h : mark ∉ cs) :
    cs.map (fun c => if c = mark then instead else c) = cs := by
  conv_rhs => rw [← List.map_id cs]
  refine List.map_congr_left ?_
  intro c hc
  exact if_neg (ne_of_mem_of_not_mem hc h)

/-- What comes before the text after the last separator ends in that separator, if there is any. -/
theorem throughLast_eq_nil_or (sep : Char) (cs : List Char) :
    throughLast sep cs = [] ∨ [sep] <:+ throughLast sep cs := by
  rcases hd : cs.reverse.dropWhile (· != sep) with _ | ⟨c, rest⟩
  · exact .inl (by rw [throughLast, hd, List.reverse_nil])
  · refine .inr ⟨rest.reverse, ?_⟩
    have hc : c = sep := by
      have hne : cs.reverse.dropWhile (· != sep) ≠ [] := by simp [hd]
      have hhead := List.head_dropWhile_not (· != sep) hne
      simpa [hd] using hhead
    rw [throughLast, hd, List.reverse_cons, hc]

end Text

namespace ClassName
variable {a b c x : String}

/-- A name with its packages written as if they were enclosing classes. -/
def flat (cs : List Char) : List Char :=
  cs.map fun c => if c = '/' then '$' else c

/-- The segments of `x` are the last segments of the class name `c`, whether they are packages or
classes there. -/
def Spells (c x : String) : Prop :=
  flat c.toList = flat x.toList ∨ '$' :: flat x.toList <:+ flat c.toList

/-- The same for `x` as it is written, in which a slash is not a separator. -/
def SpellsAsWritten (c x : String) : Prop :=
  flat c.toList = x.toList ∨ '$' :: x.toList <:+ flat c.toList

theorem flat_append (cs ds : List Char) : flat (cs ++ ds) = flat cs ++ flat ds :=
  List.map_append

theorem flat_suffix {cs ds : List Char} (h : cs <:+ ds) : flat cs <:+ flat ds :=
  List.IsSuffix.map _ h

/-- With a separator put before both names, to spell a name is to end in it. -/
theorem spells_iff : Spells c x ↔ '$' :: flat x.toList <:+ '$' :: flat c.toList := by
  rw [List.suffix_cons_iff, List.cons.injEq, Spells, eq_comm (a := flat c.toList)]
  simp

theorem Spells.refl (c : String) : Spells c c := .inl rfl

theorem Spells.trans (hab : Spells a b) (hbc : Spells b c) : Spells a c := by
  rw [spells_iff] at hab hbc ⊢
  exact hbc.trans hab

/-- What is appended to a name is appended to what it spells. -/
theorem Spells.append (h : Spells c x) (y : String) : Spells (c ++ y) (x ++ y) := by
  rw [spells_iff] at h ⊢
  simp only [String.toList_append, flat_append, ← List.cons_append]
  exact List.suffix_append_self_iff.mpr h

/-- A name that stands alone or behind a separator is spelled. -/
theorem spells_behind (h : a = "" ∨ ['$'] <:+ flat a.toList) (x : String) : Spells (a ++ x) x := by
  rcases h with rfl | ⟨before, hbefore⟩
  · rw [String.empty_append]
    exact .refl x
  · refine .inr ⟨before, ?_⟩
    rw [String.toList_append, flat_append, ← hbefore]
    simp

theorem spells_behind_slash {cs : List Char} (h : cs = [] ∨ ['/'] <:+ cs) (x : String) :
    Spells (String.ofList cs ++ x) x := by
  refine spells_behind (h.imp ?_ ?_) x
  · rintro rfl
    rfl
  · intro hends
    rw [String.toList_ofList]
    exact flat_suffix hends

theorem spells_member (c x : String) : Spells (c ++ "$" ++ x) x := by
  refine spells_behind (.inr ⟨flat c.toList, ?_⟩) x
  rw [String.toList_append, flat_append]
  rfl

/-- Slashes and dollars join parts alike. -/
theorem flat_joinWith (parts : List (List Char)) :
    flat (Text.joinWith ['/'] parts) = flat (Text.joinWith ['$'] parts) := by
  simp only [flat, Text.map_joinWith]
  rfl

/-- Parts without slashes, joined by dollars, have none. -/
theorem flat_joined {parts : List (List Char)} (h : ∀ part ∈ parts, '/' ∉ part) :
    flat (Text.joinWith ['$'] parts) = Text.joinWith ['$'] parts := by
  apply Text.rewrite_of_not_mem
  intro hslash
  rcases Text.mem_joinWith hslash with hsep | ⟨part, hpart, hin⟩
  · simp at hsep
  · exact h part hpart hin

theorem flat_reading {parts : List (List Char)} {members : Nat} (h : members < parts.length) :
    flat (reading parts members) = flat (Text.joinWith ['/'] parts) := by
  unfold reading
  simp only
  split
  · rfl
  · rename_i hm
    have htake : parts.take (parts.length - members) ≠ [] := by
      rw [Ne, List.take_eq_nil_iff, not_or]
      exact ⟨by omega, List.ne_nil_of_length_pos (by omega)⟩
    have hdrop : parts.drop (parts.length - members) ≠ [] := by
      rw [Ne, List.drop_eq_nil_iff]
      omega
    have hcut : Text.joinWith ['/'] parts =
        Text.joinWith ['/'] (parts.take (parts.length - members)) ++ ['/'] ++
          Text.joinWith ['/'] (parts.drop (parts.length - members)) := by
      rw [← Text.joinWith_append ['/'] htake hdrop, List.take_append_drop]
    rw [hcut, flat_append, flat_append, flat_append, List.append_assoc,
      flat_joinWith (parts.drop _)]
    rfl

/-- All readings of a name have the same segments. -/
theorem flat_nestedForm (h : c ∈ nestedForms a) : flat c.toList = flat a.toList := by
  obtain ⟨members, hm, rfl⟩ := List.mem_map.mp h
  rw [String.toList_ofList, flat_reading (List.mem_range.mp hm), Text.joinWith_splitAt]

end ClassName

open ClassName

/-- A class of the document's package is spelled by its name in the package. -/
theorem Document.package_spells (d : Document) (x : String) : Spells (d.package ++ x) x := by
  apply spells_behind_slash
  exact Text.throughLast_eq_nil_or '/' d.owner.toList

/-- A class of the package that needs no import is, too. -/
theorem ClassName.language_spells (x : String) : Spells (language ++ x) x :=
  spells_behind (.inr (by decide)) x

/-- The name that an import binds ends the imported name. -/
theorem Import.internal_spells (d : Import) : Spells d.internal d.simple := by
  let slashed : Char → Char := fun c => if c = '.' then '/' else c
  have hinternal : d.internal =
      String.ofList ((Text.throughLast '.' d.dotted.toList).map slashed) ++ d.simple := by
    rw [internal, simple, ← String.ofList_append]
    conv_lhs => rw [← Text.throughLast_append_afterLast '.' d.dotted.toList, List.map_append,
      Text.rewrite_of_not_mem (Text.not_mem_afterLast '.' _)]
  rw [hinternal]
  apply spells_behind_slash
  rcases Text.throughLast_eq_nil_or '.' d.dotted.toList with hnil | hends
  · exact .inl (by rw [hnil, List.map_nil])
  · exact .inr (hends.map slashed)

theorem Import.reading_spells {d : Import} {c : String} (h : c ∈ nestedForms d.internal) :
    Spells c d.simple :=
  Spells.trans (.inl (flat_nestedForm h)) d.internal_spells

namespace TypeName
variable {name : TypeName}

theorem nested_of_dotted (h : name.isDotted = true) :
    name.nested = name.root ++ "$" ++ "$".intercalate name.segments.tail := by
  obtain ⟨segments⟩ := name
  match segments, h with
  | x :: y :: rest, _ => exact String.intercalate_cons_cons

/-- A type name spells its last segment. -/
theorem spells_simple (name : TypeName) : Spells name.nested name.simple := by
  obtain ⟨segments⟩ := name
  induction segments with
  | nil => exact .refl ""
  | cons x rest ih =>
    cases rest with
    | nil =>
      rw [nested, String.intercalate_singleton]
      exact .refl x
    | cons y rest =>
      have hnested : nested ⟨x :: y :: rest⟩ = x ++ "$" ++ nested ⟨y :: rest⟩ :=
        nested_of_dotted rfl
      rw [hnested]
      exact (spells_member x _).trans ih

/-- Segments without slashes are joined as they are. -/
theorem flat_nested (h : ∀ s ∈ name.segments, '/' ∉ s.toList) :
    flat name.nested.toList = name.nested.toList := by
  rw [nested, String.toList_intercalate]
  refine flat_joined ?_
  intro part hpart
  obtain ⟨s, hs, rfl⟩ := List.mem_map.mp hpart
  exact h s hs

end TypeName

namespace Setting
variable {st : Setting} {here : Surroundings} {name : TypeName} {t : Target} {c : String}

/-- A candidate that takes only the last segment of a type name into account: a reading of an import
that binds it, or the class of the language's own package. -/
def OfferedByLast (st : Setting) (name : TypeName) (c : String) : Prop :=
  (∃ d ∈ st.imports.declarations, d.isSingleType = true ∧ d.simple = name.simple ∧
    c ∈ nestedForms d.internal) ∨ c = language ++ name.simple

theorem OfferedByLast.spells (h : st.OfferedByLast name c) : Spells c name.simple := by
  rcases h with ⟨d, _, _, hsimple, hc⟩ | rfl
  · rw [← hsimple]
    exact Import.reading_spells hc
  · exact language_spells _

/-- The first tier offers classes that a dotted name spells, and those of its last segment. -/
theorem typeCandidate_spells (hdotted : name.isDotted = true) (hc : c ∈ st.typeCandidates name) :
    Spells c name.nested ∨ st.OfferedByLast name c := by
  simp only [typeCandidates, mem_distinctNames, List.mem_append, List.mem_flatMap,
    List.mem_singleton, ImportTable.bindings, List.mem_map, List.mem_filter] at hc
  obtain ⟨⟨b, ⟨d, ⟨hd, hsingle⟩, rfl⟩, hc⟩ | rfl, _⟩ := hc
  · simp only [importedCandidates, List.mem_append, List.mem_ite_nil_right, List.mem_map] at hc
    rcases hc with ⟨hsimple, hform⟩ | ⟨⟨_, hroot⟩, form, hform, rfl⟩
    · exact .inr (.inl ⟨d, hd, hsingle, hsimple, hform⟩)
    · -- The import binds the first segment, and the other segments follow.
      left
      have hspells : Spells form name.root := hroot ▸ Import.reading_spells hform
      rw [TypeName.nested_of_dotted hdotted, String.append_assoc, String.append_assoc]
      exact hspells.append _
  · exact .inr (.inr rfl)

/-- The second tier offers only classes that a type name spells. -/
theorem secondaryCandidate_spells (hc : c ∈ st.secondaryCandidates here name) :
    Spells c name.nested := by
  simp only [secondaryCandidates, mem_distinctNames, List.mem_append, List.mem_filterMap,
    List.mem_singleton, List.mem_ite_nil_right] at hc
  obtain ⟨(⟨ctx, _, hctx⟩ | rfl) | ⟨_, rfl⟩, _⟩ := hc
  · split at hctx
    · cases hctx
    · cases hctx
    · cases hctx
      exact spells_member _ _
  · exact st.source.document.package_spells _
  · -- Written in full, all segments but the last are packages.
    left
    simp only [TypeName.nested, String.toList_intercalate]
    exact flat_joinWith _

/-- A dotted type name is resolved to a class that it spells, or to one that is offered for its last
segment alone, which it spells as far as that segment goes. Where no segment has a slash, it spells
what it spells as it is written. -/
theorem dotted_name_spells (hdotted : name.isDotted = true)
    (h : st.resolveType here name = .resolved t) :
    (Spells t.name name.nested ∨ st.OfferedByLast name t.name) ∧ Spells t.name name.simple ∧
      ((∀ s ∈ name.segments, '/' ∉ s.toList) →
        (Spells t.name name.nested ↔ SpellsAsWritten t.name name.nested)) := by
  have hoffered : Spells t.name name.nested ∨ st.OfferedByLast name t.name := by
    rcases resolveType_names.mp ⟨t, h, rfl⟩ with honly | ⟨_, _, honly⟩
    · exact typeCandidate_spells hdotted honly.mem
    · exact .inl (secondaryCandidate_spells honly.mem)
  refine ⟨hoffered, ?_, ?_⟩
  · rcases hoffered with hspells | hlast
    · exact hspells.trans name.spells_simple
    · exact hlast.spells
  · intro hslashes
    rw [Spells, TypeName.flat_nested hslashes, SpellsAsWritten]

/-- A document that imports one class, with these classes loaded. -/
def importing (dotted : String) (loaded : List String) : Setting :=
  let name := Node.plain "scoped_identifier" 7 (7 + dotted.length) []
  ofText [{ id := "lib.jar", entries := ⟨loaded.map fun c => (ClassName.entry c, [])⟩ }]
    ("import " ++ dotted ++ ";")
    (.plain "program" 0 (8 + dotted.length)
      [.plain "import_declaration" 0 (8 + dotted.length) [name]])

/-- A member class of the imported class, which is itself a member class. -/
theorem dotted_name_spells_through_import :
    let st := importing "lib.Util.Map" ["lib/Util$Map$Entry"]
    let name : TypeName := ⟨["Map", "Entry"]⟩
    let t : Target := ⟨"lib.jar", "lib/Util$Map$Entry", some "Entry", none⟩
    name.isDotted = true ∧ st.resolveType {} name = .resolved t ∧
      (Spells t.name name.nested ∨ st.OfferedByLast name t.name) ∧ Spells t.name name.simple ∧
      (Spells t.name name.nested ↔ SpellsAsWritten t.name name.nested) := by
  intro st name t
  have hres : st.resolveType {} name = .resolved t := by decide +kernel
  obtain ⟨hoffered, hspells, hwritten⟩ := dotted_name_spells rfl hres
  exact ⟨rfl, hres, hoffered, hspells, hwritten (by decide)⟩

/-- Not every class that a dotted name is resolved to is spelled by the name as it is written. The
imports that bind the last segment and the language's own package leave the other segments out of
account, and a slash within a segment is one between packages in the class that is found. -/
theorem dotted_name_need_not_be_spelled :
    (let st := importing "lib.Entry" ["lib/Entry"]
     let name : TypeName := ⟨["Map", "Entry"]⟩
     st.resolveType {} name = .resolved ⟨"lib.jar", "lib/Entry", some "Entry", none⟩ ∧
       ¬ SpellsAsWritten "lib/Entry" name.nested) ∧
    (let st := importing "lib.Entry" ["java/lang/String"]
     let name : TypeName := ⟨["Outer", "String"]⟩
     st.resolveType {} name = .resolved ⟨"lib.jar", "java/lang/String", some "String", none⟩ ∧
       ¬ SpellsAsWritten "java/lang/String" name.nested) ∧
    (let st := importing "lib.Entry" ["demo/a/b$C"]
     let name : TypeName := ⟨["a/b", "C"]⟩
     st.resolveType {} name = .resolved ⟨"lib.jar", "demo/a/b$C", some "C", none⟩ ∧
       ¬ SpellsAsWritten "demo/a/b$C" name.nested) := by
  unfold SpellsAsWritten
  refine ⟨⟨by decide +kernel, ?_⟩, ⟨by decide +kernel, ?_⟩, ⟨by decide +kernel, ?_⟩⟩
  · decide
  · decide
  · decide

end Setting
end SourceLinks
