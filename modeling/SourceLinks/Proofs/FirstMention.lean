import Mathlib.Data.List.Induction
import Mathlib.Data.List.Nodup
import SourceLinks.Proofs.Scopes

namespace SourceLinks
variable {α κ β : Type}

section Mention
variable [DecidableEq κ]

/-- What has been mentioned, and this too. -/
def mention (seen : List κ) (x : κ) : List κ :=
  if x ∈ seen then seen else seen ++ [x]

theorem nodup_eraseDups (items : List κ) : items.eraseDups.Nodup := by
  match items with
  | [] => exact List.nodup_nil
  | x :: rest =>
    rw [List.eraseDups_cons, List.nodup_cons]
    refine ⟨?_, nodup_eraseDups _⟩
    simp [List.mem_eraseDups]
termination_by items.length
decreasing_by
  exact Nat.lt_succ_of_le (List.length_filter_le _ rest)

theorem eraseDups_concat (items : List κ) (x : κ) :
    (items ++ [x]).eraseDups = mention items.eraseDups x := by
  rw [List.eraseDups_append, mention]
  by_cases h : x ∈ items
  · simp [h, List.removeAll, List.mem_eraseDups]
  · simp [h, List.removeAll, List.mem_eraseDups, List.eraseDups_cons]

/-- Mentioned one after another, items come to stand in the order of their first mention. -/
theorem foldl_mention (seen items : List κ) :
    items.foldl mention seen.eraseDups = (seen ++ items).eraseDups := by
  induction items using List.reverseRecOn with
  | nil => rw [List.foldl_nil, List.append_nil]
  | append_singleton items x ih =>
    rw [List.foldl_append, ih, ← List.append_assoc, eraseDups_concat]
    rfl

/-- Items grouped by their keys, each key once, are all the items. -/
theorem perm_groups {keys : List κ} (key : α → κ) (hnodup : keys.Nodup) (items : List α)
    (hkeys : ∀ a ∈ items, key a ∈ keys) :
    (keys.flatMap fun k => items.filter fun a => key a == k).Perm items := by
  induction keys generalizing items with
  | nil =>
    have hnone : items = [] := List.eq_nil_iff_forall_not_mem.mpr fun a ha => by
      simpa using hkeys a ha
    rw [hnone]
    rfl
  | cons k keys ih =>
    obtain ⟨hk, hnodup⟩ := List.nodup_cons.mp hnodup
    -- The groups of the other keys lose nothing with the items of this one.
    have hothers : (keys.flatMap fun k' => items.filter fun a => key a == k') =
        keys.flatMap fun k' => (items.filter fun a => !(key a == k)).filter fun a => key a == k' := by
      refine List.flatMap_congr fun k' hk' => ?_
      rw [List.filter_filter]
      refine List.filter_congr fun a _ => ?_
      have hne : k' ≠ k := fun he => hk (he ▸ hk')
      by_cases ha : key a = k' <;> simp [ha, hne]
    rw [List.flatMap_cons, hothers]
    have hrest := ih hnodup (items.filter fun a => !(key a == k)) fun a ha => by
      obtain ⟨ha, hne⟩ := List.mem_filter.mp ha
      exact (List.mem_cons.mp (hkeys a ha)).resolve_left (by simpa using hne)
    exact (hrest.append_left _).trans (List.filter_append_perm _ items)

end Mention

namespace Keyed
variable {t : Keyed β}

theorem keys_set (t : Keyed β) (key : String) (v : β) :
    (t.set key v).keys = mention t.keys key := by
  obtain ⟨entries⟩ := t
  simp only [set, keys]
  induction entries with
  | nil => rfl
  | cons e rest ih =>
    obtain ⟨k, w⟩ := e
    rw [place]
    split
    · rename_i hk
      simp [mention, hk]
    · rename_i hk
      simp only [List.map_cons, ih, mention, List.mem_cons, Ne.symm hk, false_or]
      split <;> rfl

/-- What is set one after another adds its keys in this order. -/
theorem keys_foldl (key : α → String) (value : Keyed β → α → β) (items : List α) (t : Keyed β) :
    (items.foldl (fun t a => t.set (key a) (value t a)) t).keys =
      (items.map key).foldl mention t.keys := by
  induction items generalizing t with
  | nil => rfl
  | cons a items ih => rw [List.foldl_cons, ih, keys_set, List.map_cons, List.foldl_cons]

/-- A table in which no key stands twice is known by its keys and what it has for them. -/
theorem entries_eq (h : t.keys.Nodup) :
    t.entries = t.keys.filterMap fun k => (t.get? k).map fun v => (k, v) := by
  obtain ⟨entries⟩ := t
  simp only [keys, get?] at h ⊢
  induction entries with
  | nil => rfl
  | cons e rest ih =>
    obtain ⟨k, w⟩ := e
    obtain ⟨hk, hrest⟩ := List.nodup_cons.mp h
    have hothers : (rest.map Prod.fst).filterMap (fun x =>
        (List.lookup x ((k, w) :: rest)).map fun v => (x, v)) =
        (rest.map Prod.fst).filterMap fun x => (rest.lookup x).map fun v => (x, v) := by
      refine List.filterMap_congr fun x hx => ?_
      have hne : x ≠ k := fun he => hk (he ▸ hx)
      rw [lookup_cons_if, if_neg hne]
    rw [List.map_cons, List.filterMap_cons, lookup_cons_if, if_pos rfl, hothers, ← ih hrest]
    rfl

theorem keys_ofList (pairs : List (String × β)) :
    (ofList pairs).keys = (pairs.map Prod.fst).eraseDups :=
  (keys_foldl Prod.fst (fun _ e => e.2) pairs {}).trans (foldl_mention [] _)

/-- What pairs make of an empty table: each key in the place of its first mention, with the last
value given for it. -/
theorem entries_ofList (pairs : List (String × β)) :
    (ofList pairs).entries =
      (pairs.map Prod.fst).eraseDups.filterMap fun k => (lastOf k pairs).map fun v => (k, v) := by
  rw [entries_eq (keys_ofList pairs ▸ nodup_eraseDups _), keys_ofList]
  refine List.filterMap_congr fun k _ => ?_
  rw [ofList, get_setAll, get_empty, Option.or_none]

end Keyed
end SourceLinks
