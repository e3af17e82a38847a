import SourceLinks.Proofs.Findings

namespace SourceLinks

/-- The node, if it is a call. -/
def Entry.call? (e : Entry) : Option Node :=
  if e.node.kind = "method_invocation" then some e.node else none

namespace Node

/-- If the call is made on something, this is the call's first child. -/
def ReceiverFirst (n : Node) : Prop :=
  ∀ obj, n.child? "object" = some obj → n.children.head? = some obj

/-- It is enough to look at the fields of the children. -/
theorem receiverFirst_iff {n : Node} :
    n.ReceiverFirst ↔
      n.child? "object" = none ∨ ∃ c, n.children.head? = some c ∧ c.field = "object" := by
  constructor
  · intro hfirst
    cases hobj : n.child? "object" with
    | none => exact .inl rfl
    | some obj => exact .inr ⟨obj, hfirst obj hobj, by simpa using List.find?_some hobj⟩
  · rintro (hnone | ⟨c, hhead, hc⟩) obj hobj
    · cases hnone.symm.trans hobj
    · obtain ⟨rest, hchildren⟩ := List.head?_eq_some_iff.mp hhead
      simp only [child?, hchildren, List.find?_cons, hc, BEq.rfl] at hobj
      rw [hhead, hobj]

instance : DecidablePred ReceiverFirst := fun _ => decidable_of_iff _ receiverFirst_iff.symm

/-- The calls that a walk enters. -/
def calls (parent : String) (n : Node) : List Node :=
  (n.entries parent).filterMap Entry.call?

theorem calls_eq (parent : String) (n : Node) :
    n.calls parent =
      if Setting.isSkipped (Role.under parent n.kind) then []
      else (Entry.call? ⟨parent, n⟩).toList ++ n.children.flatMap (calls n.kind) := by
  rw [calls, entries_eq]
  split
  · rfl
  · rw [← List.singleton_append, List.filterMap_append, List.filterMap_flatMap]
    cases h : Entry.call? ⟨parent, n⟩ <;> simp [h] <;> rfl

end Node

/-- The calls that a pass over the source enters. -/
def Source.calls (s : Source) : List Node :=
  s.root.children.flatMap (Node.calls s.root.kind)

namespace Site

def call? : Site → Option Node
  | .call node _ => some node
  | _ => none

/-- A reference with those that a walk comes to right after it: a call with the rest of its chain. -/
def chained : Site → List Site
  | .call node here => node.chain.map (.call · here)
  | s => [s]

/-- The calls among these. -/
def calls : Site → List Node
  | .call node _ => node.chain
  | _ => []

theorem mem_chained {s : Site} {x : Node} {here : Surroundings} :
    .call x here ∈ s.chained ↔ ∃ n, s = .call n here ∧ x ∈ n.chain := by
  cases s <;> simp [chained, and_comm, eq_comm]

theorem calls_chained (heads : List Site) :
    (heads.flatMap chained).filterMap call? = heads.flatMap calls := by
  rw [List.filterMap_flatMap]
  refine List.flatMap_congr fun s _ => ?_
  cases s with
  | call n here => exact List.filterMap_map.trans List.filterMap_some
  | _ => rfl

theorem call_mem {heads : List Site} {x : Node} {here : Surroundings}
    (h : .call x here ∈ heads.flatMap chained) : x ∈ heads.flatMap calls := by
  rw [← calls_chained]
  exact List.mem_filterMap.mpr ⟨_, h, rfl⟩

end Site

theorem Role.under_eq_methodCall {parent kind : String} :
    Role.under parent kind = .methodCall ↔ kind = "method_invocation" := by
  constructor
  · intro h
    unfold Role.under at h
    split at h
    · split at h <;> cases h
    · split at h
      · split at h <;> cases h
      · unfold Role.ofKind at h
        split at h <;> cases h
        rfl
  · rintro rfl
    rfl

namespace Setting
variable {st : Setting} {parent kind : String} {here : Surroundings}

theorem sites_exit (here : Surroundings) (role : Role) :
    st.sites here (Work.exitOf? role).toList = [] := by
  cases role <;> rfl

/-- The references in a node: one that it is itself, and those in its children. -/
theorem sites_agenda (here : Surroundings) (parent : String) (n : Node) :
    st.sites here (n.agenda parent) =
      if isSkipped (Role.under parent n.kind) then []
      else (Work.site? here (.enter parent n)).toList ++
        st.sites (st.moved here (.enter parent n)) (n.children.flatMap (Node.agenda n.kind)) := by
  rw [Node.agenda_eq, sites]
  split
  · rename_i hs
    have hsite : Work.site? here (.enter parent n) = none := by
      cases hr : Role.under parent n.kind <;> simp_all [Work.site?, isSkipped]
    rw [hsite]
    rfl
  · rw [sites_append, sites_exit, List.append_nil]

theorem site_call {n : Node} (hkind : n.kind = "method_invocation") :
    Work.site? here (.enter parent n) = some (.call n here) := by
  simp only [Work.site?, Role.under_eq_methodCall.mpr hkind]

theorem site_other (parent : String) (here : Surroundings) {n : Node}
    (hkind : n.kind ≠ "method_invocation") :
    Work.site? here (.enter parent n) = none ∨
      Work.site? here (.enter parent n) = some (.type n here) := by
  have hrole : Role.under parent n.kind ≠ .methodCall := mt Role.under_eq_methodCall.mp hkind
  cases hr : Role.under parent n.kind <;> simp_all [Work.site?]

/-- The references in some nodes are chains of calls and other references, if those in each are. -/
theorem sites_forest {nodes : List Node} (h : ∀ c ∈ nodes, ∀ here, ∃ heads : List Site,
    st.sites here (c.agenda kind) = heads.flatMap Site.chained) (here : Surroundings) :
    ∃ heads : List Site,
      st.sites here (nodes.flatMap (Node.agenda kind)) = heads.flatMap Site.chained := by
  induction nodes generalizing here with
  | nil => exact ⟨[], rfl⟩
  | cons c nodes ih =>
    obtain ⟨first, hfirst⟩ := h c (by simp) here
    obtain ⟨rest, hrest⟩ := ih (fun d hd => h d (by simp [hd])) ((c.agenda kind).foldl st.moved here)
    refine ⟨first ++ rest, ?_⟩
    rw [List.flatMap_cons, sites_append, hfirst, hrest, List.flatMap_append]

/-- Where receivers come first, the calls of a chain are met one right after another. -/
theorem sites_chained (n : Node) (parent : String) (hfirst : ∀ c ∈ n.calls parent, c.ReceiverFirst)
    (here : Surroundings) :
    ∃ heads : List Site, st.sites here (n.agenda parent) = heads.flatMap Site.chained ∧
      (n.kind = "method_invocation" → ∃ rest, heads = .call n here :: rest) := by
  induction n using Node.induct generalizing parent here with
  | step n ih =>
    rw [sites_agenda]
    split
    · rename_i hs
      refine ⟨[], rfl, ?_⟩
      intro hkind
      rw [Role.under_eq_methodCall.mpr hkind] at hs
      cases hs
    rename_i hs
    have hcalls : n.calls parent =
        (Entry.call? ⟨parent, n⟩).toList ++ n.children.flatMap (Node.calls n.kind) := by
      rw [Node.calls_eq, if_neg hs]
    have hbelow : ∀ c ∈ n.children, ∀ here, ∃ heads : List Site,
        st.sites here (c.agenda n.kind) = heads.flatMap Site.chained ∧
          (c.kind = "method_invocation" → ∃ rest, heads = .call c here :: rest) := fun c hc =>
      ih c hc n.kind fun x hx => hfirst x (by
        rw [hcalls]
        exact List.mem_append_right _ (List.mem_flatMap.mpr ⟨c, hc, hx⟩))
    have hforest : ∀ nodes ⊆ n.children, ∀ here, ∃ heads : List Site,
        st.sites here (nodes.flatMap (Node.agenda n.kind)) = heads.flatMap Site.chained := by
      intro nodes hsub
      refine sites_forest fun c hc here => ?_
      obtain ⟨heads, hheads, _⟩ := hbelow c (hsub hc) here
      exact ⟨heads, hheads⟩
    by_cases hkind : n.kind = "method_invocation"
    · have hcall : Role.under parent n.kind = .methodCall := Role.under_eq_methodCall.mpr hkind
      rw [site_call hkind, moved_reference (.inr hcall)]
      cases hm : n.receiver? with
      | none =>
        obtain ⟨heads, hheads⟩ := hforest n.children (List.Subset.refl _) here
        refine ⟨.call n here :: heads, ?_, fun _ => ⟨heads, rfl⟩⟩
        rw [hheads, List.flatMap_cons, Site.chained, Node.chain_last hm]
        rfl
      | some m =>
        -- The receiver is the first child, so that its chain goes on where this call is met.
        obtain ⟨_, hobj, hmkind⟩ := Node.receiver_eq_some hm
        have hself : n ∈ n.calls parent := by
          rw [hcalls, Entry.call?, if_pos hkind]
          exact List.mem_append_left _ (List.mem_singleton_self n)
        obtain ⟨others, hchildren⟩ := List.head?_eq_some_iff.mp (hfirst n hself m hobj)
        obtain ⟨heads, hheads, hstart⟩ := hbelow m (by simp [hchildren]) here
        obtain ⟨inner, rfl⟩ := hstart hmkind
        obtain ⟨outer, houter⟩ := hforest others (by simp [hchildren])
          ((m.agenda n.kind).foldl st.moved here)
        refine ⟨.call n here :: (inner ++ outer), ?_, fun _ => ⟨_, rfl⟩⟩
        rw [hchildren, List.flatMap_cons, sites_append, hheads, houter, List.flatMap_cons,
          List.flatMap_cons, List.flatMap_append, Site.chained, Site.chained, Node.chain_more hm]
        simp
    · obtain ⟨heads, hheads⟩ := hforest n.children (List.Subset.refl _)
        (st.moved here (.enter parent n))
      refine ⟨(Work.site? here (.enter parent n)).toList ++ heads, ?_, fun h => absurd h hkind⟩
      rw [hheads, List.flatMap_append]
      congr 1
      rcases site_other parent here hkind with h | h <;> rw [h] <;> rfl

theorem calls_forest {nodes : List Node} (h : ∀ c ∈ nodes, ∀ here,
    (st.sites here (c.agenda kind)).filterMap Site.call? = c.calls kind) (here : Surroundings) :
    (st.sites here (nodes.flatMap (Node.agenda kind))).filterMap Site.call? =
      nodes.flatMap (Node.calls kind) := by
  induction nodes generalizing here with
  | nil => rfl
  | cons c nodes ih =>
    rw [List.flatMap_cons, sites_append, List.filterMap_append, h c (by simp),
      ih fun d hd => h d (by simp [hd]), List.flatMap_cons]

/-- The calls among the references are those that the walk enters. -/
theorem sites_calls (n : Node) (parent : String) (here : Surroundings) :
    (st.sites here (n.agenda parent)).filterMap Site.call? = n.calls parent := by
  induction n using Node.induct generalizing parent here with
  | step n ih =>
    rw [sites_agenda, Node.calls_eq]
    split
    · rfl
    · rw [List.filterMap_append, calls_forest fun c hc => ih c hc n.kind]
      congr 1
      by_cases hkind : n.kind = "method_invocation"
      · rw [site_call hkind, Entry.call?, if_pos hkind]
        rfl
      · rw [Entry.call?, if_neg hkind]
        rcases site_other parent here hkind with h | h <;> rw [h] <;> rfl

/-- The references of a pass are chains of calls and other references, and so are those that would
have followed if it is cancelled. Together they have each call once. -/
theorem passSites_chained (hfirst : ∀ c ∈ st.source.calls, c.ReceiverFirst) (cancelled : Nat → Bool) :
    ∃ heads more : List Site, st.passSites cancelled = heads.flatMap Site.chained ∧
      (heads ++ more).flatMap Site.calls = st.source.calls := by
  obtain ⟨later, hchildren⟩ := Node.uncancelled_prefix cancelled 0 st.source.root.children
  have hforest : ∀ nodes ⊆ st.source.root.children, ∃ heads : List Site,
      st.sites {} (nodes.flatMap (Node.agenda st.source.root.kind)) = heads.flatMap Site.chained := by
    intro nodes hsub
    refine sites_forest (fun c hc here => ?_) {}
    obtain ⟨heads, hheads, _⟩ := sites_chained c st.source.root.kind
      (fun x hx => hfirst x (List.mem_flatMap.mpr ⟨c, hsub hc, hx⟩)) here
    exact ⟨heads, hheads⟩
  obtain ⟨heads, hheads⟩ := hforest _
    (Node.uncancelled_prefix cancelled 0 st.source.root.children).subset
  obtain ⟨more, hmore⟩ := hforest later (List.IsSuffix.subset ⟨_, hchildren⟩)
  have himports : st.importSites.flatMap Site.chained = st.importSites ∧
      st.importSites.filterMap Site.call? = [] := by
    unfold importSites
    split
    · simp [List.flatMap_map, List.filterMap_map, Function.comp_def, Site.chained, Site.call?,
        ← List.map_eq_flatMap]
    · simp
  refine ⟨st.importSites ++ heads, more, ?_, ?_⟩
  · rw [passSites, agenda, hheads, List.flatMap_append, himports.1]
  · rw [List.append_assoc, ← Site.calls_chained, List.flatMap_append, List.flatMap_append, ← hheads,
      ← hmore, List.filterMap_append, List.filterMap_append, himports.1, himports.2,
      calls_forest fun c _ => sites_calls c _, calls_forest fun c _ => sites_calls c _,
      List.nil_append, ← List.flatMap_append, hchildren]
    rfl

end Setting

/-- The name in a call of `next` on the result of `k` others. -/
def Node.nextName (k : Nat) : Node :=
  ⟨"identifier", "name", true, false, 5 + 7 * k, 9 + 7 * k, []⟩

/-- A call of `next` on the result of `k` others, the innermost on a class with a name of four
letters. -/
def Node.nexts (field : String) : (k : Nat) → Node
  | 0 =>
    ⟨"method_invocation", field, true, false, 0, 11,
      [⟨"identifier", "object", true, false, 0, 4, []⟩, nextName 0]⟩
  | k + 1 =>
    ⟨"method_invocation", field, true, false, 0, 11 + 7 * (k + 1),
      [nexts "object" k, nextName (k + 1)]⟩

/-- A document with such a call and nothing else, as `Main.next().next()` for one on another. -/
def Setting.nexts (k : Nat) (limit : Int) : Setting where
  corpus := ⟨[Archive.pair]⟩
  source :=
    { document :=
        ⟨("Main" ++ String.join (List.replicate (k + 1) ".next()")).toList, "demo/Main", "demo.jar"⟩
      root := .plain "program" 0 (11 + 7 * k) [.nexts "" k] }
  config := { maxChainDepth := limit }

end SourceLinks
