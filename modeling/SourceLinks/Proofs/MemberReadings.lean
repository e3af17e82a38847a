import SourceLinks.Proofs.DottedNames

namespace SourceLinks

namespace Text

/-- Parts joined by a separator that stands in none of them have one separator less than parts. -/
theorem count_joinWith {sep : Char} {parts : List (List Char)} (hne : parts ≠ [])
    (h : ∀ part ∈ parts, sep ∉ part) : (joinWith [sep] parts).count sep + 1 = parts.length := by
  induction parts with
  | nil => exact absurd rfl hne
  | cons part rest ih =>
    have hpart : part.count sep = 0 := List.count_eq_zero.mpr (h part List.mem_cons_self)
    cases rest with
    | nil => simp [joinWith, hpart]
    | cons next rest =>
      have hrest := ih (List.cons_ne_nil next rest) fun p hp => h p (List.mem_cons_of_mem part hp)
      rw [joinWith_cons_cons, List.count_append, List.count_append, hpart, List.count_singleton_self,
        List.length_cons, ← hrest]
      omega

theorem length_splitAt (sep : Char) (cs : List Char) :
    (splitAt sep cs).length = cs.count sep + 1 := by
  have hcount := count_joinWith (splitAt_ne_nil sep cs) fun _ => not_mem_of_mem_splitAt
  rw [← hcount, joinWith_splitAt]

end Text

namespace ClassName
variable {name : String} {cs front back : List Char} {members : Nat}

/-- A name with its last `members` slashes written as dollars: a slash is among them if fewer than
that many slashes stand behind it. -/
def memberForm (members : Nat) : List Char → List Char
  | [] => []
  | c :: rest => (if c = '/' ∧ rest.count '/' < members then '$' else c) :: memberForm members rest

/-- A name with its enclosing classes written as if they were packages. -/
def unflat (cs : List Char) : List Char :=
  cs.map fun c => if c = '$' then '/' else c

/-- Where no more slashes are left than are to be rewritten, all of them are. -/
theorem memberForm_flat (h : cs.count '/' ≤ members) : memberForm members cs = flat cs := by
  induction cs with
  | nil => rfl
  | cons c rest ih =>
    rw [List.count_cons] at h
    rw [memberForm, ih (by omega), flat, flat, List.map_cons]
    by_cases hc : c = '/'
    · subst hc
      simp only [beq_self_eq_true, ↓reduceIte] at h
      rw [if_pos ⟨rfl, by omega⟩, if_pos rfl]
    · rw [if_neg fun hslash => hc hslash.1, if_neg hc]

/-- The slashes to be rewritten are those of a back part with that many. -/
theorem memberForm_append (front : List Char) (h : back.count '/' = members) :
    memberForm members (front ++ back) = front ++ flat back := by
  induction front with
  | nil => exact memberForm_flat h.le
  | cons c front ih =>
    have hkept : ¬ (c = '/' ∧ (front ++ back).count '/' < members) := by
      rw [List.count_append, h]
      omega
    rw [List.cons_append, memberForm, if_neg hkept, ih, List.cons_append]

/-- A cut of the parts is a cut of the name, whose back part begins with the slash of the cut. -/
theorem reading_eq_memberForm (h : members < (Text.splitAt '/' cs).length) :
    reading (Text.splitAt '/' cs) members = memberForm members cs := by
  have hplain : ∀ part ∈ Text.splitAt '/' cs, '/' ∉ part := fun _ => Text.not_mem_of_mem_splitAt
  have hjoin := Text.joinWith_splitAt '/' cs
  generalize Text.splitAt '/' cs = parts at h hplain hjoin
  by_cases hm : members = 0
  · have hwhole : memberForm members (cs ++ []) = cs ++ flat [] := memberForm_append cs hm.symm
    rw [List.append_nil, flat, List.map_nil, List.append_nil] at hwhole
    rw [reading, if_pos hm, hjoin, hwhole]
  · have htake : parts.take (parts.length - members) ≠ [] := by
      rw [Ne, List.take_eq_nil_iff, not_or]
      exact ⟨by omega, List.ne_nil_of_length_pos (by omega)⟩
    have hlength : (parts.drop (parts.length - members)).length = members := by
      rw [List.length_drop]
      omega
    have hdrop : parts.drop (parts.length - members) ≠ [] := List.ne_nil_of_length_pos (by omega)
    have hback : ∀ part ∈ parts.drop (parts.length - members), '/' ∉ part := fun part hpart =>
      hplain part (List.mem_of_mem_drop hpart)
    have hcut : Text.joinWith ['/'] (parts.take (parts.length - members)) ++
        '/' :: Text.joinWith ['/'] (parts.drop (parts.length - members)) = cs := by
      rw [← hjoin, ← List.take_append_drop (parts.length - members) parts,
        Text.joinWith_append ['/'] htake hdrop, List.take_append_drop, List.append_assoc,
        List.singleton_append]
    have hcount : ('/' :: Text.joinWith ['/'] (parts.drop (parts.length - members))).count '/' =
        members := by
      rw [List.count_cons_self, Text.count_joinWith hdrop hback, hlength]
    rw [← hcut, memberForm_append _ hcount, reading, if_neg hm, ← flat_joined hback,
      ← flat_joinWith]
    rfl

theorem nestedForms_eq (name : String) :
    nestedForms name = (List.range (name.toList.count '/' + 1)).map fun members =>
      String.ofList (memberForm members name.toList) := by
  rw [nestedForms, Text.length_splitAt]
  refine List.map_congr_left fun members hm => ?_
  rw [reading_eq_memberForm]
  rw [Text.length_splitAt]
  exact List.mem_range.mp hm

/-- There is a cut with any number of slashes behind it, up to all of them. -/
theorem exists_cut (h : members ≤ cs.count '/') :
    ∃ front back, front ++ back = cs ∧ back.count '/' = members := by
  induction cs with
  | nil => exact ⟨[], [], rfl, (Nat.le_zero.mp h).symm⟩
  | cons c rest ih =>
    by_cases hall : members = (c :: rest).count '/'
    · exact ⟨[], c :: rest, rfl, hall.symm⟩
    · have hone : (c :: rest).count '/' ≤ rest.count '/' + 1 := by
        rw [List.count_cons]
        split <;> omega
      obtain ⟨front, back, hcut, hback⟩ := ih (by omega)
      exact ⟨c :: front, back, congrArg (c :: ·) hcut, hback⟩

theorem mem_nestedForms {form : String} : form ∈ nestedForms name ↔
    ∃ front back, front ++ back = name.toList ∧ form.toList = front ++ flat back := by
  rw [nestedForms_eq, List.mem_map]
  constructor
  · rintro ⟨members, hm, rfl⟩
    obtain ⟨front, back, hcut, hback⟩ := exists_cut (Nat.lt_succ_iff.mp (List.mem_range.mp hm))
    refine ⟨front, back, hcut, ?_⟩
    rw [String.toList_ofList, ← hcut, memberForm_append front hback]
  · rintro ⟨front, back, hcut, hform⟩
    refine ⟨back.count '/', List.mem_range.mpr ?_, ?_⟩
    · rw [← hcut, List.count_append]
      omega
    · rw [← hcut, memberForm_append front rfl, ← hform, String.ofList_toList]

theorem count_flat (cs : List Char) : (flat cs).count '$' = cs.count '$' + cs.count '/' := by
  induction cs with
  | nil => rfl
  | cons c rest ih =>
    have hcons : flat (c :: rest) = (if c = '/' then '$' else c) :: flat rest := rfl
    rw [hcons, List.count_cons, List.count_cons, List.count_cons, ih]
    by_cases hc : c = '/'
    · subst hc
      simp
      omega
    · simp [hc]
      omega

/-- How many slashes are written as dollars shows in the number of dollars. -/
theorem count_memberForm (h : members ≤ cs.count '/') :
    (memberForm members cs).count '$' = cs.count '$' + members := by
  obtain ⟨front, back, hcut, hback⟩ := exists_cut h
  rw [← hcut, memberForm_append front hback, List.count_append, List.count_append, count_flat,
    hback]
  omega

theorem nestedForms_nodup (name : String) : (nestedForms name).Nodup := by
  rw [nestedForms_eq]
  refine List.Nodup.map_on ?_ List.nodup_range
  intro a ha b hb hform
  have hcount := congrArg (List.count '$') (String.ofList_injective hform)
  rw [count_memberForm (Nat.lt_succ_iff.mp (List.mem_range.mp ha)),
    count_memberForm (Nat.lt_succ_iff.mp (List.mem_range.mp hb))] at hcount
  omega

theorem not_mem_unflat (cs : List Char) : '$' ∉ unflat cs := by
  rw [unflat, List.mem_map]
  rintro ⟨c, -, hc⟩
  split at hc
  · exact absurd hc (by decide)
  · rename_i hne
    exact hne hc

theorem unflat_flat (h : '$' ∉ cs) : unflat (flat cs) = cs := by
  rw [unflat, flat, List.map_map]
  conv_rhs => rw [← List.map_id cs]
  refine List.map_congr_left fun c hc => ?_
  have hne : c ≠ '$' := ne_of_mem_of_not_mem hc h
  by_cases hslash : c = '/' <;> simp [hslash, hne]

/-- A name without dollars is got back from each of its readings. A name with dollars is not, as it
is a reading of itself. -/
theorem unflat_nestedForms :
    (∀ form ∈ nestedForms name, unflat form.toList = name.toList) ↔ '$' ∉ name.toList := by
  constructor
  · intro h
    have hself : name ∈ nestedForms name :=
      mem_nestedForms.mpr ⟨name.toList, [], List.append_nil _, (List.append_nil _).symm⟩
    rw [← h name hself]
    exact not_mem_unflat _
  · intro h form hform
    obtain ⟨front, back, hcut, hform⟩ := mem_nestedForms.mp hform
    rw [← hcut, List.mem_append, not_or] at h
    have hfront : unflat front = front := Text.rewrite_of_not_mem h.1
    rw [hform, ← hcut, unflat, List.map_append, ← unflat, ← unflat, hfront, unflat_flat h.2]

/-- The readings of a name are as many as its parts, and no two of them are alike. Each has one more
of the last slashes written as a dollar than the one before it, so they are what the name becomes if
the slashes of any back part are written as dollars. From every reading the name is got back, unless
it has dollars of its own. -/
theorem readings_replace_last_slashes (name : String) :
    (nestedForms name = (List.range (Text.splitAt '/' name.toList).length).map fun members =>
      String.ofList (memberForm members name.toList)) ∧
    (Text.splitAt '/' name.toList).length = name.toList.count '/' + 1 ∧
    (nestedForms name).Nodup ∧
    (∀ form, form ∈ nestedForms name ↔
      ∃ front back, front ++ back = name.toList ∧ form.toList = front ++ flat back) ∧
    ((∀ form ∈ nestedForms name, unflat form.toList = name.toList) ↔ '$' ∉ name.toList) := by
  have hlength := Text.length_splitAt '/' name.toList
  refine ⟨?_, hlength, nestedForms_nodup name, fun form => mem_nestedForms, unflat_nestedForms⟩
  rw [hlength]
  exact nestedForms_eq name

example : nestedForms "java/util/Map/Entry" =
    ["java/util/Map/Entry", "java/util/Map$Entry", "java/util$Map$Entry", "java$util$Map$Entry"] := by
  decide

end ClassName
end SourceLinks
