import SourceLinks.Proofs.Clicks

namespace SourceLinks

namespace Node
variable {text : List Char} {n outer base args last type : Node} {notes : List Node}

/-- The kinds of what may stand between the parts of a type: annotations and comments. -/
def noteKinds : List String :=
  ["annotation", "marker_annotation", "line_comment", "block_comment"]

mutual
/-- The identifiers of a type from left to right. Those within type arguments and annotations are
none of its own. -/
def identifiers : Node → List Node
  | ⟨kind, field, named, missing, start, stop, children⟩ =>
    if kind = "type_identifier" then [⟨kind, field, named, missing, start, stop, children⟩]
    else if kind = "type_arguments" ∨ kind ∈ noteKinds then []
    else identifiersAmong children

def identifiersAmong : List Node → List Node
  | [] => []
  | c :: rest => (if c.named then c.identifiers else []) ++ identifiersAmong rest
end

/-- The parts of a type apart from annotations and comments. -/
def typeParts (n : Node) : List Node :=
  n.namedChildren.filter fun c => c.kind ∉ noteKinds

/-- The node is a class type as the grammar builds it: an identifier, a member of a class type, or a
class type with arguments, which it has only once. Annotations may stand before every part. -/
inductive IsClassType : Node → Prop where
  | identifier {n : Node} (kind : n.kind = "type_identifier") : IsClassType n
  | member {n outer last : Node} (kind : n.kind = "scoped_type_identifier")
      (parts : n.typeParts = [outer, last]) (outer_type : IsClassType outer)
      (last_kind : last.kind = "type_identifier") : IsClassType n
  | parameterized {n base args : Node} (kind : n.kind = "generic_type")
      (parts : n.typeParts = [base, args]) (base_type : IsClassType base)
      (base_kind : base.kind ≠ "generic_type") (args_kind : args.kind = "type_arguments") :
      IsClassType n

/-- A class type, with or without annotations before the whole of it. -/
inductive IsAnnotatedType : Node → Prop where
  | plain {n : Node} (type : IsClassType n) : IsAnnotatedType n
  | annotated {n type : Node} (notes : List Node) (kind : n.kind = "annotated_type")
      (parts : n.namedChildren = notes ++ [type]) (notes_kind : ∀ c ∈ notes, c.kind ∈ noteKinds)
      (class_type : IsClassType type) : IsAnnotatedType n

theorem identifiersAmong_eq (nodes : List Node) :
    identifiersAmong nodes = (nodes.filter Node.named).flatMap identifiers := by
  induction nodes with
  | nil => rfl
  | cons c rest ih => by_cases hc : c.named = true <;> simp [identifiersAmong, ih, hc]

theorem identifiers_eq (n : Node) : n.identifiers =
    if n.kind = "type_identifier" then [n]
    else if n.kind = "type_arguments" ∨ n.kind ∈ noteKinds then []
    else n.namedChildren.flatMap identifiers := by
  obtain ⟨kind, field, named, missing, start, stop, children⟩ := n
  rw [identifiers, identifiersAmong_eq]
  rfl

theorem identifiers_self (h : n.kind = "type_identifier") : n.identifiers = [n] := by
  rw [identifiers_eq, if_pos h]

theorem identifiers_arguments (h : n.kind = "type_arguments") : n.identifiers = [] := by
  rw [identifiers_eq, if_neg (by simp [h]), if_pos (.inl h)]

theorem identifiers_note (h : n.kind ∈ noteKinds) : n.identifiers = [] := by
  have hother : n.kind ≠ "type_identifier" := ne_of_mem_of_not_mem h (by decide)
  rw [identifiers_eq, if_neg hother, if_pos (.inr h)]

/-- What annotations and comments give nothing to comes from the other parts. -/
theorem flatMap_typeParts {α : Type} {f : Node → List α}
    (h : ∀ c : Node, c.kind ∈ noteKinds → f c = []) (n : Node) :
    n.namedChildren.flatMap f = n.typeParts.flatMap f := by
  rw [typeParts]
  induction n.namedChildren with
  | nil => rfl
  | cons c rest ih => by_cases hc : c.kind ∈ noteKinds <;> simp [ih, hc, h c]

theorem identifiers_parts
    (h : n.kind ∈ ["scoped_type_identifier", "generic_type", "annotated_type"]) :
    n.identifiers = n.typeParts.flatMap identifiers := by
  rw [identifiers_eq, flatMap_typeParts fun c => identifiers_note]
  simp only [List.mem_cons, List.not_mem_nil, or_false] at h
  rcases h with h | h | h
  all_goals rw [if_neg (by simp [h]), if_neg (by simp [h, noteKinds])]

theorem identifiers_member (kind : n.kind = "scoped_type_identifier")
    (parts : n.typeParts = [outer, last]) (last_kind : last.kind = "type_identifier") :
    n.identifiers = outer.identifiers ++ [last] := by
  rw [identifiers_parts (by simp [kind]), parts]
  simp [identifiers_self last_kind]

theorem identifiers_parameterized (kind : n.kind = "generic_type")
    (parts : n.typeParts = [base, args]) (args_kind : args.kind = "type_arguments") :
    n.identifiers = base.identifiers := by
  rw [identifiers_parts (by simp [kind]), parts]
  simp [identifiers_arguments args_kind]

theorem identifiers_annotated (kind : n.kind = "annotated_type")
    (parts : n.namedChildren = notes ++ [type]) (notes_kind : ∀ c ∈ notes, c.kind ∈ noteKinds) :
    n.identifiers = type.identifiers := by
  have hnotes : notes.flatMap identifiers = [] :=
    List.flatMap_eq_nil_iff.mpr fun c hc => identifiers_note (notes_kind c hc)
  rw [identifiers_parts (by simp [kind]), ← flatMap_typeParts fun c => identifiers_note, parts]
  simp [hnotes]

theorem kind_of_mem_identifiers {c : Node} (h : c ∈ n.identifiers) : c.kind = "type_identifier" := by
  induction n using induct with
  | step n ih =>
    rw [identifiers_eq] at h
    split at h
    · rename_i hkind
      rwa [List.mem_singleton.mp h]
    split at h
    · cases h
    · obtain ⟨d, hd, hc⟩ := List.mem_flatMap.mp h
      exact ih d (List.mem_filter.mp hd).1 hc

theorem IsClassType.identifiers_ne_nil (h : n.IsClassType) : n.identifiers ≠ [] := by
  induction h with
  | identifier kind => simp [identifiers_self kind]
  | member kind parts _ last_kind => simp [identifiers_member kind parts last_kind]
  | parameterized kind parts _ _ args_kind ih => rwa [identifiers_parameterized kind parts args_kind]

theorem IsClassType.kind_mem (h : n.IsClassType) :
    n.kind ∈ ["type_identifier", "scoped_type_identifier", "generic_type"] := by
  cases h with
  | identifier kind => simp [kind]
  | member kind => simp [kind]
  | parameterized kind => simp [kind]

/-- The identifiers of a laid out node lie in it, one behind the other. -/
theorem LaidOut.identifiers (h : n.LaidOut text) :
    (∀ c ∈ n.identifiers, n.start ≤ c.start ∧ c.stop ≤ n.stop) ∧
      n.identifiers.Pairwise fun a b => a.stop ≤ b.start := by
  induction h with
  | @node n _ _ inside apart _ ih =>
    have hchild : ∀ c ∈ n.namedChildren, c ∈ n.children := fun c hc => (List.mem_filter.mp hc).1
    rw [identifiers_eq]
    split
    · simp
    split
    · simp
    constructor
    · intro d hd
      obtain ⟨c, hc, hd⟩ := List.mem_flatMap.mp hd
      obtain ⟨hstart, hstop⟩ := inside c (hchild c hc)
      obtain ⟨hstart', hstop'⟩ := (ih c (hchild c hc)).1 d hd
      exact ⟨Nat.le_trans hstart hstart', Nat.le_trans hstop' hstop⟩
    · rw [List.pairwise_flatMap]
      refine ⟨fun c hc => (ih c (hchild c hc)).2, ?_⟩
      refine ((apart.sublist List.filter_sublist).imp_of_mem ?_)
      intro c d hc hd hapart a ha b hb
      have hstop := ((ih c (hchild c hc)).1 a ha).2
      have hstart := ((ih d (hchild d hd)).1 b hb).1
      omega

end Node

namespace Source
variable {s : Source} {n base : Node} {rest : List Node}

section Segments

theorem segments_identifier (h : n.kind = "type_identifier") : s.segments n = [s.text n] := by
  obtain ⟨kind, field, named, missing, start, stop, children⟩ := n
  exact if_pos h

/-- What names no type has no segments. -/
theorem segments_other (hidentifier : n.kind ≠ "type_identifier")
    (hmember : n.kind ≠ "scoped_type_identifier") (hparameterized : n.kind ≠ "generic_type") :
    s.segments n = [] := by
  obtain ⟨kind, field, named, missing, start, stop, children⟩ := n
  rw [segments, if_neg hidentifier, if_neg hparameterized, if_neg hmember]

theorem segments_note (h : n.kind ∈ Node.noteKinds) : s.segments n = [] := by
  apply segments_other <;> exact ne_of_mem_of_not_mem h (by decide)

theorem allSegments_eq (s : Source) (nodes : List Node) :
    s.allSegments nodes = (nodes.filter Node.named).flatMap s.segments := by
  induction nodes with
  | nil => rfl
  | cons c rest ih =>
    rw [allSegments, ih, List.filter_cons]
    by_cases hc : c.named = true
    · rw [hc, Bool.true_and]
      split
      · rfl
      · rename_i hkind
        simp only [Bool.or_eq_true, beq_iff_eq, not_or] at hkind
        simp [segments_other hkind.1.1 hkind.1.2 hkind.2]
    · simp [hc]

theorem firstSegments_eq (s : Source) (nodes : List Node) : s.firstSegments nodes =
    (((nodes.filter Node.named).find? fun c => c.kind == "type_identifier"
      || c.kind == "scoped_type_identifier").map s.segments).getD [] := by
  induction nodes with
  | nil => rfl
  | cons c rest ih =>
    rw [firstSegments, ih]
    by_cases hc : c.named = true
    · rw [List.filter_cons_of_pos hc, List.find?_cons, hc, Bool.true_and]
      split <;> simp [*]
    · simp [hc]

/-- All parts of a member of a type are read. -/
theorem segments_member (h : n.kind = "scoped_type_identifier") :
    s.segments n = n.typeParts.flatMap s.segments := by
  rw [← Node.flatMap_typeParts fun c => segments_note]
  obtain ⟨kind, field, named, missing, start, stop, children⟩ := n
  obtain rfl : kind = "scoped_type_identifier" := h
  exact allSegments_eq s children

/-- Of a type with arguments, the first part is read if it names a type and has no arguments yet. -/
theorem segments_parameterized (kind : n.kind = "generic_type") (parts : n.typeParts = base :: rest)
    (base_kind : base.kind ∈ ["type_identifier", "scoped_type_identifier"]) :
    s.segments n = s.segments base := by
  obtain ⟨before, after, hchildren, hbefore, -, -⟩ := List.filter_eq_cons_iff.mp parts
  have hfound : (n.namedChildren.find? fun c => c.kind == "type_identifier"
      || c.kind == "scoped_type_identifier") = some base := by
    refine List.find?_eq_some_iff_append.mpr ⟨by simpa using base_kind, before, after, hchildren, ?_⟩
    intro c hc
    have hnote : c.kind ∈ Node.noteKinds := by simpa using hbefore c hc
    have hidentifier : c.kind ≠ "type_identifier" := ne_of_mem_of_not_mem hnote (by decide)
    have hmember : c.kind ≠ "scoped_type_identifier" := ne_of_mem_of_not_mem hnote (by decide)
    simp [hidentifier, hmember]
  obtain ⟨kind', field, named, missing, start, stop, children⟩ := n
  obtain rfl : kind' = "generic_type" := kind
  exact (firstSegments_eq s children).trans
    (congrArg (fun first => (first.map s.segments).getD []) hfound)

/-- The segments of a class type are its identifiers, whatever arguments and annotations it has. -/
theorem segments_eq (h : n.IsClassType) : s.segments n = n.identifiers.map s.text := by
  induction h with
  | identifier kind => rw [segments_identifier kind, Node.identifiers_self kind, List.map_singleton]
  | member kind parts _ last_kind ih =>
    rw [Node.identifiers_member kind parts last_kind, segments_member kind, parts]
    simp [ih, segments_identifier last_kind]
  | parameterized kind parts base_type base_kind args_kind ih =>
    have hbase := base_type.kind_mem
    simp only [List.mem_cons, base_kind, List.not_mem_nil, or_false] at hbase
    rw [Node.identifiers_parameterized kind parts args_kind, ← ih]
    exact segments_parameterized kind parts (by simpa using hbase)

end Segments

theorem lastTypeName_eq (s : Source) (nodes : List Node) :
    s.lastTypeName? nodes = (nodes.filter Node.named).getLast?.bind s.typeName? := by
  induction nodes with
  | nil => rfl
  | cons c rest ih =>
    rw [lastTypeName?, ih]
    cases hrest : rest.filter Node.named with
    | nil =>
      have hnone : rest.any Node.named = false := by
        rw [List.any_eq_false]
        exact List.filter_eq_nil_iff.mp hrest
      by_cases hc : c.named = true <;> simp [hnone, hrest, hc]
    | cons d others =>
      have hsome : rest.any Node.named = true := by
        have hd : d ∈ rest.filter Node.named := hrest ▸ List.mem_cons_self
        exact List.any_eq_true.mpr ⟨d, List.mem_filter.mp hd⟩
      by_cases hc : c.named = true <;> simp [hsome, hrest, hc]

theorem typeName_annotated (h : n.kind = "annotated_type") :
    s.typeName? n = n.namedChildren.getLast?.bind s.typeName? := by
  obtain ⟨kind, field, named, missing, start, stop, children⟩ := n
  exact (if_pos h).trans (lastTypeName_eq s children)

theorem typeName_segments (h : n.kind ≠ "annotated_type") : s.typeName? n =
    if s.segments n = [] ∨ s.segments n = ["var"] then none else some ⟨s.segments n⟩ := by
  obtain ⟨kind, field, named, missing, start, stop, children⟩ := n
  rw [typeName?, if_neg h]
  split
  · rename_i hnone
    rw [if_pos (.inl hnone)]
  · rename_i hvar
    rw [if_pos (.inr hvar)]
  · rename_i hsome hother
    rw [if_neg (not_or.mpr ⟨hsome, hother⟩)]

theorem typeName_eq (h : n.IsClassType) : s.typeName? n =
    if n.identifiers.map s.text = ["var"] then none else some ⟨n.identifiers.map s.text⟩ := by
  have hkind : n.kind ≠ "annotated_type" := ne_of_mem_of_not_mem h.kind_mem (by decide)
  have hsome : n.identifiers.map s.text ≠ [] := by simpa using h.identifiers_ne_nil
  rw [typeName_segments hkind, segments_eq h]
  simp only [hsome, false_or]

/-- The name of a class type, which may have annotations before it, consists of its identifiers and
of nothing else, in the order in which they stand in the text; type arguments and annotations make no
difference to it, wherever they stand. Only where `var` is all there is, there is no name. -/
theorem type_name_is_identifiers (h : n.IsAnnotatedType) :
    (s.typeName? n = if n.identifiers.map s.text = ["var"] then none
      else some ⟨n.identifiers.map s.text⟩) ∧
    n.identifiers ≠ [] ∧ (∀ c ∈ n.identifiers, c.kind = "type_identifier") ∧
    (n.LaidOut s.document.text → n.identifiers.Pairwise fun a b => a.stop ≤ b.start) := by
  refine ⟨?_, ?_, fun c => Node.kind_of_mem_identifiers, fun hlaid => hlaid.identifiers.2⟩
  · cases h with
    | plain type => exact typeName_eq type
    | annotated _ kind parts notes_kind class_type =>
      rw [Node.identifiers_annotated kind parts notes_kind, ← typeName_eq class_type,
        typeName_annotated kind, parts, List.getLast?_concat, Option.bind_some]
  · cases h with
    | plain type => exact type.identifiers_ne_nil
    | annotated _ kind parts notes_kind class_type =>
      rw [Node.identifiers_annotated kind parts notes_kind]
      exact class_type.identifiers_ne_nil

/-- A member of a type with arguments that has an annotation before it and arguments of its own,
with an annotation before the whole. -/
def annotatedEntry : Node :=
  .plain "annotated_type" 0 23 [
    .plain "marker_annotation" 0 2 [.plain "identifier" 1 2 []],
    .plain "generic_type" 3 23 [
      .plain "scoped_type_identifier" 3 20 [
        .plain "generic_type" 3 11 [
          .plain "scoped_type_identifier" 3 8 [
            .plain "type_identifier" 3 4 [], .plain "type_identifier" 5 8 []],
          .plain "type_arguments" 8 11 [.plain "type_identifier" 9 10 []]],
        .plain "marker_annotation" 12 14 [.plain "identifier" 13 14 []],
        .plain "type_identifier" 15 20 []],
      .plain "type_arguments" 20 23 [.plain "type_identifier" 21 22 []]]]

theorem type_name_is_identifiers_of_entry :
    let s : Source := (Setting.ofText [] "@A a.Map<K>.@B Entry<T>" annotatedEntry).source
    annotatedEntry.IsAnnotatedType ∧ s.typeName? annotatedEntry = some ⟨["a", "Map", "Entry"]⟩ := by
  intro s
  have htype : annotatedEntry.IsAnnotatedType := by
    refine .annotated [_] rfl rfl (by decide) ?_
    refine .parameterized rfl rfl ?_ (by decide) rfl
    refine .member rfl rfl ?_ rfl
    refine .parameterized rfl rfl ?_ (by decide) rfl
    exact .member rfl rfl (.identifier rfl) rfl
  refine ⟨htype, ?_⟩
  have hwords : annotatedEntry.identifiers.map s.text = ["a", "Map", "Entry"] := by decide +kernel
  have hname := (type_name_is_identifiers (s := s) htype).1
  rw [hwords] at hname
  exact hname

end Source
end SourceLinks
