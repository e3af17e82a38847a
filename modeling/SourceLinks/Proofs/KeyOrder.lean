import Mathlib.Data.List.Nodup
import SourceLinks.Digest

namespace SourceLinks

namespace Json
variable {v w : Json} {items : List Json} {members others : List (String × Json)}

theorem induct {motive : Json → Prop} (null : motive .null) (bool : ∀ b, motive (.bool b))
    (int : ∀ n, motive (.int n)) (str : ∀ s, motive (.str s))
    (list : ∀ items, (∀ j ∈ items, motive j) → motive (.list items))
    (object : ∀ members, (∀ m ∈ members, motive m.2) → motive (.object members)) (v : Json) :
    motive v := by
  match v with
  | .null => exact null
  | .bool b => exact bool b
  | .int n => exact int n
  | .str s => exact str s
  | .list items => exact list items fun j _ => induct null bool int str list object j
  | .object members => exact object members fun m _ => induct null bool int str list object m.2
termination_by sizeOf v
decreasing_by
  · have hlt := List.sizeOf_lt_of_mem ‹j ∈ items›
    simp only [Json.list.sizeOf_spec]
    omega
  · have hlt := List.sizeOf_lt_of_mem ‹m ∈ members›
    obtain ⟨key, j⟩ := m
    simp only [Json.object.sizeOf_spec, Prod.mk.sizeOf_spec] at hlt ⊢
    omega

mutual
/-- No object in the value has a key twice. -/
def hasDistinctKeys : Json → Bool
  | .list items => allHaveDistinctKeys items
  | .object members => decide (members.map Prod.fst).Nodup && membersHaveDistinctKeys members
  | .null | .bool _ | .int _ | .str _ => true

def allHaveDistinctKeys : List Json → Bool
  | [] => true
  | j :: rest => j.hasDistinctKeys && allHaveDistinctKeys rest

def membersHaveDistinctKeys : List (String × Json) → Bool
  | [] => true
  | (_, j) :: rest => j.hasDistinctKeys && membersHaveDistinctKeys rest
end

@[simp] theorem hasDistinctKeys_list :
    (Json.list items).hasDistinctKeys = true ↔ ∀ j ∈ items, j.hasDistinctKeys = true := by
  rw [hasDistinctKeys]
  induction items with
  | nil => simp [allHaveDistinctKeys]
  | cons j rest ih => simp [allHaveDistinctKeys, ih]

@[simp] theorem hasDistinctKeys_object :
    (Json.object members).hasDistinctKeys = true ↔
      (members.map Prod.fst).Nodup ∧ ∀ m ∈ members, m.2.hasDistinctKeys = true := by
  have hmembers : membersHaveDistinctKeys members = true ↔
      ∀ m ∈ members, m.2.hasDistinctKeys = true := by
    induction members with
    | nil => simp [membersHaveDistinctKeys]
    | cons m rest ih => simp [membersHaveDistinctKeys, ih]
  rw [hasDistinctKeys, Bool.and_eq_true, decide_eq_true_iff, hmembers]

/-- One value is the other with the members of objects in it, however deep they lie, in another
order. -/
inductive Reordered : Json → Json → Prop
  | refl (v : Json) : Reordered v v
  | trans {u v w : Json} (first : Reordered u v) (second : Reordered v w) : Reordered u w
  | members {members others : List (String × Json)} (h : members.Perm others) :
      Reordered (.object members) (.object others)
  | inItem (front back : List Json) {v w : Json} (h : Reordered v w) :
      Reordered (.list (front ++ v :: back)) (.list (front ++ w :: back))
  | inMember (front back : List (String × Json)) {key : String} {v w : Json} (h : Reordered v w) :
      Reordered (.object (front ++ (key, v) :: back)) (.object (front ++ (key, w) :: back))

theorem Reordered.symm (h : Reordered v w) : Reordered w v := by
  induction h with
  | refl v => exact .refl v
  | trans _ _ ih₁ ih₂ => exact .trans ih₂ ih₁
  | members h => exact .members h.symm
  | inItem front back _ ih => exact .inItem front back ih
  | inMember front back _ ih => exact .inMember front back ih

/-- No key is lost or doubled. -/
theorem Reordered.hasDistinctKeys_iff (h : Reordered v w) :
    v.hasDistinctKeys = true ↔ w.hasDistinctKeys = true := by
  induction h with
  | refl v => rfl
  | trans _ _ ih₁ ih₂ => exact ih₁.trans ih₂
  | members h => simp only [hasDistinctKeys_object, (h.map Prod.fst).nodup_iff, h.mem_iff]
  | inItem _ _ _ ih => simp [or_imp, forall_and, ih]
  | inMember _ _ _ ih => simp [or_imp, forall_and, ih]

section Sorting

@[simp] theorem sorted_list : (Json.list items).sorted = .list (items.map sorted) := by
  rw [sorted]
  congr 1
  induction items with
  | nil => rfl
  | cons j rest ih => rw [sortedAll, ih, List.map_cons]

/-- Members in the order of their keys. -/
def inKeyOrder (members : List (String × Json)) : List (String × Json) :=
  members.mergeSort fun a b => !(b.1 < a.1)

@[simp] theorem sorted_object :
    (Json.object members).sorted = .object (inKeyOrder (members.map fun m => (m.1, m.2.sorted))) := by
  have hmembers : sortedMembers members = members.map fun m => (m.1, m.2.sorted) := by
    induction members with
    | nil => rfl
    | cons m rest ih => rw [sortedMembers, ih, List.map_cons]
  rw [sorted, hmembers, inKeyOrder]

theorem inKeyOrder_sorted (members : List (String × Json)) :
    (inKeyOrder members).Pairwise fun a b => ¬ b.1 < a.1 := by
  have htotal : ∀ a b : String × Json, (!decide (b.1 < a.1) || !decide (a.1 < b.1)) = true := by
    intro a b
    simp only [Bool.or_eq_true, Bool.not_eq_true', decide_eq_false_iff_not, String.not_lt]
    exact String.le_total a.1 b.1
  have htrans : ∀ a b c : String × Json, (!decide (b.1 < a.1)) = true →
      (!decide (c.1 < b.1)) = true → (!decide (c.1 < a.1)) = true := by
    intro a b c hab hbc
    simp only [Bool.not_eq_true', decide_eq_false_iff_not, String.not_lt] at hab hbc ⊢
    exact String.le_trans hab hbc
  refine (List.pairwise_mergeSort htrans htotal members).imp fun h => ?_
  simpa only [Bool.not_eq_true', decide_eq_false_iff_not] using h

/-- Where no key stands twice, the order of keys is the only one. -/
theorem inKeyOrder_perm (h : members.Perm others) (hkeys : (members.map Prod.fst).Nodup) :
    inKeyOrder members = inKeyOrder others := by
  have hmembers : (inKeyOrder members).Perm members := List.mergeSort_perm _ _
  have hothers : (inKeyOrder others).Perm others := List.mergeSort_perm _ _
  refine List.Perm.eq_of_pairwise ?_ (inKeyOrder_sorted members) (inKeyOrder_sorted others)
    (hmembers.trans (h.trans hothers.symm))
  intro a b ha hb hab hba
  have hkey : a.1 = b.1 := String.le_antisymm (String.not_lt.mp hab) (String.not_lt.mp hba)
  exact List.inj_on_of_nodup_map hkeys (hmembers.subset ha)
    (h.mem_iff.mpr (hothers.subset hb)) hkey

/-- The order in which members stand leaves no trace in the sorted value. -/
theorem Reordered.sorted_eq (h : Reordered v w) (hv : v.hasDistinctKeys = true) :
    v.sorted = w.sorted := by
  induction h with
  | refl v => rfl
  | trans hfirst _ ih₁ ih₂ => exact (ih₁ hv).trans (ih₂ (hfirst.hasDistinctKeys_iff.mp hv))
  | members h =>
    have hkeys := (hasDistinctKeys_object.mp hv).1
    rw [sorted_object, sorted_object]
    congr 1
    exact inKeyOrder_perm (h.map _) (by simpa [List.map_map, Function.comp_def] using hkeys)
  | inItem _ _ _ ih =>
    have hitem := hasDistinctKeys_list.mp hv _ List.mem_append_cons_self
    simp only [sorted_list, List.map_append, List.map_cons, ih hitem]
  | inMember _ _ _ ih =>
    have hmember := (hasDistinctKeys_object.mp hv).2 _ List.mem_append_cons_self
    simp only [sorted_object, List.map_append, List.map_cons, ih hmember]

/-- Items are reordered one after another. -/
theorem reordered_items {f : Json → Json} (h : ∀ j ∈ items, Reordered j (f j)) (front : List Json) :
    Reordered (.list (front ++ items)) (.list (front ++ items.map f)) := by
  induction items generalizing front with
  | nil => exact .refl _
  | cons j rest ih =>
    have hrest := ih (fun k hk => h k (List.mem_cons_of_mem j hk)) (front ++ [f j])
    rw [List.append_assoc, List.append_assoc] at hrest
    exact .trans (.inItem front rest (h j List.mem_cons_self)) hrest

theorem reordered_values {f : Json → Json} (h : ∀ m ∈ members, Reordered m.2 (f m.2))
    (front : List (String × Json)) :
    Reordered (.object (front ++ members)) (.object (front ++ members.map fun m => (m.1, f m.2))) := by
  induction members generalizing front with
  | nil => exact .refl _
  | cons m rest ih =>
    have hrest := ih (fun n hn => h n (List.mem_cons_of_mem m hn)) (front ++ [(m.1, f m.2)])
    rw [List.append_assoc, List.append_assoc] at hrest
    exact .trans (.inMember front rest (h m List.mem_cons_self)) hrest

/-- The sorted value is the value with its members in another order. -/
theorem reordered_sorted (v : Json) : Reordered v v.sorted := by
  induction v using induct with
  | null => exact .refl _
  | bool b => exact .refl _
  | int n => exact .refl _
  | str s => exact .refl _
  | list items ih =>
    rw [sorted_list]
    exact reordered_items ih []
  | object members ih =>
    rw [sorted_object]
    exact .trans (reordered_values ih []) (.members (List.mergeSort_perm _ _).symm)

/-- Values are sorted alike if and only if they differ in the order of members alone. -/
theorem reordered_iff (hv : v.hasDistinctKeys = true) : Reordered v w ↔ v.sorted = w.sorted := by
  constructor
  · intro h
    exact h.sorted_eq hv
  · intro hsorted
    exact .trans (reordered_sorted v) (hsorted ▸ (reordered_sorted w).symm)

end Sorting
end Json

namespace Digest
variable {v w : Json}

/-- The octets that stand for a value, which are those of its sorted form. The null value has none. -/
def octets? (limit : Int) (v : Json) : Option (List UInt8) :=
  match v.sorted with
  | .null => none
  | j =>
    let text := j.write false
    some (Utf8.encode (if limit < text.length then Text.upTo limit text else text))

theorem ofJson_octets (limit : Int) (v : Json) :
    ofJson limit v = ((octets? limit v).map fun octets => String.ofList (sha1 octets)).getD "" := by
  cases v <;> rfl

/-- Values that differ in the order of members alone, at any depth, are sorted alike, and no others
are. Whatever the limit, the octets to be digested are the same for them, and so is the digest. -/
theorem digest_ignores_member_order (hv : v.hasDistinctKeys = true) (w : Json) :
    (v.Reordered w ↔ v.sorted = w.sorted) ∧
      (v.Reordered w → ∀ limit, octets? limit v = octets? limit w ∧
        ofJson limit v = ofJson limit w) := by
  refine ⟨Json.reordered_iff hv, ?_⟩
  intro h limit
  have hoctets : octets? limit v = octets? limit w := by rw [octets?, octets?, h.sorted_eq hv]
  exact ⟨hoctets, by rw [ofJson_octets, ofJson_octets, hoctets]⟩

/-- An object within a list within an object; the text is cut. -/
theorem digest_ignores_member_order_within_list :
    let inner : Json := .object [("z", .int 1), ("é", .null)]
    let turned : Json := .object [("é", .null), ("z", .int 1)]
    let v : Json := .object [("b", .list [.str "x", inner]), ("a", .bool true)]
    let w : Json := .object [("a", .bool true), ("b", .list [.str "x", turned])]
    v.hasDistinctKeys = true ∧ v.Reordered w ∧ octets? 20 v = octets? 20 w ∧
      ofJson 20 v = ofJson 20 w := by
  intro inner turned v w
  have hv : v.hasDistinctKeys = true := by decide
  have hinner : inner.Reordered turned := .members (.swap _ _ _)
  have hmember : v.Reordered (.object [("b", .list [.str "x", turned]), ("a", .bool true)]) :=
    .inMember [] _ (.inItem [.str "x"] [] hinner)
  have h : v.Reordered w := .trans hmember (.members (.swap _ _ _))
  exact ⟨hv, h, (digest_ignores_member_order hv w).2 h 20⟩

end Digest
end SourceLinks
