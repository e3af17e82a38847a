import SourceLinks.Proofs.ChainOrder
import SourceLinks.Proofs.EnclosingClasses

namespace SourceLinks

theorem Entry.call_isEntered {e : Entry} (h : e.node.kind = "method_invocation") : e.IsEntered := by
  have hrole : e.role = .methodCall := Role.under_eq_methodCall.mpr h
  rw [IsEntered, hrole]
  rfl

/-- Nothing comes between a node and its first child. -/
theorem not_before_first_child {π τ : Place} (hlow : List.Lex (· < ·) π τ) :
    ¬ List.Lex (· < ·) τ (π ++ [0]) := by
  induction π generalizing τ with
  | nil =>
    intro hhigh
    cases hhigh with
    | nil => cases hlow
    | cons hnil => cases hnil
    | rel hlt => omega
  | cons i π ih =>
    intro hhigh
    cases hlow with
    | cons hlow =>
      cases hhigh with
      | cons hhigh => exact ih hlow hhigh
      | rel hlt => omega
    | rel hlt =>
      cases hhigh with
      | cons _ => omega
      | rel hlt' => omega

namespace Source
variable {s : Source} {π σ τ : Place} {e f : Entry} {c : Node} {i k k' : Nat} {x : String}

/-- A place is entered if and only if there is a node and neither it nor one above it is skipped. -/
theorem mem_places :
    π ∈ s.places ↔ (∃ e, s.entryAt? π = some e) ∧
      ∀ σ e, σ <+: π → s.entryAt? σ = some e → e.IsEntered := by
  unfold places
  rw [Node.mem_placesAmong]
  constructor
  · intro hπ
    obtain ⟨j, c, σ, hc, hσ, rfl⟩ := hπ
    obtain ⟨⟨e, he⟩, hup⟩ := Node.mem_places.mp hσ
    refine ⟨⟨e, by simp [entryAt?, hc, he]⟩, ?_⟩
    intro τ e hτ he
    cases τ with
    | nil => simp [entryAt?] at he
    | cons m τ =>
      obtain ⟨rfl, hrest⟩ := List.cons_prefix_cons.mp hτ
      exact hup τ e hrest (by simpa [entryAt?, hc] using he)
  · intro hπ
    obtain ⟨⟨e, he⟩, hup⟩ := hπ
    cases π with
    | nil => simp [entryAt?] at he
    | cons j π =>
      simp only [entryAt?, Option.bind_eq_some_iff] at he
      obtain ⟨c, hc, he⟩ := he
      refine ⟨j, c, π, hc, Node.mem_places.mpr ⟨⟨e, he⟩, ?_⟩, by simp⟩
      intro τ e hτ he
      exact hup (j :: τ) e (List.cons_prefix_cons.mpr ⟨rfl, hτ⟩) (by simpa [entryAt?, hc] using he)

/-- With a node, a pass enters those of its children that it does not skip. -/
theorem child_mem_places (hπ : π ∈ s.places) (he : s.entryAt? π = some e)
    (hc : e.node.children[i]? = some c) (hentered : (Entry.mk e.node.kind c).IsEntered) :
    π ++ [i] ∈ s.places := by
  have hchild : s.entryAt? (π ++ [i]) = some ⟨e.node.kind, c⟩ := by
    rw [entryAt_child he, hc]
    rfl
  refine mem_places.mpr ⟨⟨_, hchild⟩, ?_⟩
  intro σ d hσ hd
  rcases List.prefix_concat_iff.mp hσ with rfl | hσ
  · rw [hchild] at hd
    cases hd
    exact hentered
  · exact (mem_places.mp hπ).2 σ d hσ hd

/-- The first child of a node is entered right after it. -/
theorem first_child_next (hk : s.places[k]? = some π) (hmem : π ++ [0] ∈ s.places) :
    s.places[k + 1]? = some (π ++ [0]) := by
  obtain ⟨j, hj⟩ := List.mem_iff_getElem?.mp hmem
  obtain ⟨hlt, hπ⟩ := List.getElem?_eq_some_iff.mp hk
  obtain ⟨hlt', hchild⟩ := List.getElem?_eq_some_iff.mp hj
  have hsorted := List.pairwise_iff_getElem.mp s.places_sorted
  have hle : k ≤ j := entered_above_first hk hj (List.prefix_append _ _)
  have hne : k ≠ j := by
    rintro rfl
    simp [hπ] at hchild
  rcases Nat.lt_or_ge (k + 1) j with hbetween | hge
  · have hlow := hsorted k (k + 1) hlt (by omega) (by omega)
    have hhigh := hsorted (k + 1) j (by omega) hlt' hbetween
    rw [hπ] at hlow
    rw [hchild] at hhigh
    exact absurd hhigh (not_before_first_child hlow)
  · obtain rfl : j = k + 1 := by omega
    exact hj

/-- The calls that a pass enters, place by place. -/
theorem calls_eq_places (s : Source) :
    s.calls = s.places.filterMap fun π => (s.entryAt? π).bind Entry.call? := by
  rw [places, Node.placesAmong_eq,
    Node.filterMap_belowEach 0 (h := fun c σ => (c.entryAt? s.root.kind σ).bind Entry.call?)]
  · refine List.flatMap_congr fun c _ => ?_
    rw [Node.calls, Node.entries, List.filterMap_filterMap]
  · intro j c σ hc
    simp [entryAt?, hc]

/-- Where no two calls cover the same octets, these tell where a call stands. -/
theorem place_of_span (hspans : (s.calls.map Node.span).Nodup) (hk : s.places[k]? = some π)
    (hk' : s.places[k']? = some σ) (he : s.entryAt? π = some e) (hf : s.entryAt? σ = some f)
    (hcall : e.node.kind = "method_invocation") (hcall' : f.node.kind = "method_invocation")
    (hspan : e.node.span = f.node.span) : k = k' := by
  rw [calls_eq_places, List.map_filterMap, List.Nodup, List.pairwise_filterMap,
    List.pairwise_iff_getElem] at hspans
  obtain ⟨hlt, rfl⟩ := List.getElem?_eq_some_iff.mp hk
  obtain ⟨hlt', rfl⟩ := List.getElem?_eq_some_iff.mp hk'
  have hspanAt : ∀ {π e}, s.entryAt? π = some e → e.node.kind = "method_invocation" →
      ((s.entryAt? π).bind Entry.call?).map Node.span = some e.node.span := by
    intro π e he hcall
    simp [he, Entry.call?, hcall]
  rcases Nat.lt_trichotomy k k' with h | h | h
  · exact absurd hspan (hspans k k' hlt hlt' h _ (hspanAt he hcall) _ (hspanAt hf hcall'))
  · exact h
  · exact absurd hspan.symm (hspans k' k hlt' hlt h _ (hspanAt hf hcall') _ (hspanAt he hcall))

/-- A call neither opens a scope nor declares anything, so names mean in it what they do around it. -/
theorem visible_call (hk : s.places[k]? = some π) (he : s.entryAt? π = some e)
    (hcall : e.node.kind = "method_invocation") (x : String) :
    s.visible (s.places.take (k + 1)) π x = s.visible (s.places.take k) π.dropLast x := by
  have hrole : e.role = .methodCall := Role.under_eq_methodCall.mpr hcall
  have hopens : s.opensAt π = false := by
    simp [opensAt, he, hrole, Role.opensScope, Role.scope?]
  have hne : π ≠ [] := by
    rintro rfl
    simp [entryAt?] at he
  have hscopes := s.scopesAt_snoc π.dropLast (π.getLast hne)
  rw [List.dropLast_append_getLast, hopens, if_neg Bool.false_ne_true] at hscopes
  have htake : s.places.take (k + 1) = s.places.take k ++ [π] := by
    rw [List.take_add_one, hk, Option.toList_some]
  have hlast : ∀ scope, s.lastIn (s.places.take (k + 1)) scope x =
      s.lastIn (s.places.take k) scope x := by
    intro scope
    rw [htake, lastIn_snoc he]
    simp [declaredBy, hrole]
  simp only [visible, hscopes, hlast]

end Source

namespace Setting
variable {st : Setting} {π σ : Place} {e : Entry} {here : Surroundings} {memo memo' : CallMemo}
  {n m : Node} {k : Nat} {outcome : Verdict} {res : Resolution}
  {chained : Option (CallMemo → Node → Inquiry CallOutcome)}

/-- These surroundings are those of place number `k` before it is entered. Of the variables this is
said only where the receiver of every call comes first: a call looks its receiver up before it enters
what stands before it. -/
structure Surrounds (st : Setting) (k : Nat) (π : Place) (here : Surroundings) : Prop where
  classes : here.classes = st.classesAt π.dropLast
  meanings : (∀ c ∈ st.source.calls, c.ReceiverFirst) →
    ∀ x, here.scopes.lookup? x = st.source.visible (st.source.places.take k) π.dropLast x

/-- The call with these octets comes to this where it stands. -/
def Arises (st : Setting) (key : Nat × Nat) (res : Resolution) : Prop :=
  ∃ k π e here chained memo memo', st.source.places[k]? = some π ∧ st.source.entryAt? π = some e ∧
    e.node.kind = "method_invocation" ∧ e.node.span = key ∧ st.Surrounds k π here ∧
    (st.freshCall here chained memo e.node).Yields (.ok res, memo')

/-- Everything that is remembered came about where it stands. -/
def Sourced (st : Setting) (memo : CallMemo) : Prop :=
  ∀ key res, (key, res) ∈ memo → st.Arises key res

theorem methodOf_memo {method : String} {received : Verdict}
    (h : (st.methodOf memo method received).Yields (outcome, memo')) : memo' = memo := by
  unfold methodOf at h
  split at h
  · rw [Inquiry.yields_bind] at h
    obtain ⟨_, _, h⟩ := h
    exact (Inquiry.yields_pair.mp h).2
  · exact (Inquiry.yields_pair.mp h).2

/-- The method of a receiver that has a class is looked for from that class; a receiver without one
settles the call. -/
theorem methodOf_yields {method : String} {received : Verdict}
    (h : (st.methodOf memo method received).Yields (.ok res, memo')) :
    (∃ owner, received = .ok (.resolved owner) ∧ (st.locateMethod owner method).Yields res) ∨
      received = .ok res ∧ ∀ t, res ≠ .resolved t := by
  unfold methodOf at h
  split at h
  · rename_i owner
    rw [Inquiry.yields_bind] at h
    obtain ⟨found, hfound, h⟩ := h
    obtain ⟨rfl, -⟩ := Inquiry.yields_pair.mp h
    exact .inl ⟨owner, rfl, hfound⟩
  · rename_i hother
    obtain ⟨rfl, -⟩ := Inquiry.yields_pair.mp h
    exact .inr ⟨rfl, fun t ht => hother t (by rw [ht])⟩

theorem locateMethod_resolves {owner : Target} {method : String}
    (h : (st.locateMethod owner method).Yields res) : ∃ t, res = .resolved t := by
  rw [locateMethod, Attempt.yields_bind] at h
  obtain ⟨declared, _, h⟩ := h
  cases declared with
  | some target => exact ⟨target, Attempt.yields_pure.mp h⟩
  | none => exact ⟨_, Attempt.yields_pure.mp h⟩

/-- A call changes what is remembered only through the call that is its receiver. -/
theorem freshCall_memo (h : (st.freshCall here chained memo n).Yields (outcome, memo')) :
    memo' = memo ∨ ∃ inner m received, chained = some inner ∧ n.receiver? = some m ∧
      (inner memo m).Yields (received, memo') := by
  unfold freshCall at h
  split at h
  · exact .inl (Inquiry.yields_pair.mp h).2
  rename_i name hname
  simp only at h
  split at h
  · split at h
    · exact .inl (methodOf_memo h)
    · rw [Inquiry.yields_bind] at h
      obtain ⟨_, _, h⟩ := h
      exact .inl (Inquiry.yields_pair.mp h).2
  · rename_i obj hobj
    split at h
    · rename_i hkind
      split at h
      · exact .inl (Inquiry.yields_pair.mp h).2
      · rename_i inner
        rw [Inquiry.yields_bind] at h
        obtain ⟨⟨received, between⟩, hinner, h⟩ := h
        have hm : n.receiver? = some obj := by
          simp [Node.receiver?, hname, hobj, hkind]
        rw [methodOf_memo h]
        exact .inr ⟨inner, obj, received, rfl, hm, hinner⟩
    · rw [Inquiry.yields_bind] at h
      obtain ⟨_, _, h⟩ := h
      exact .inl (methodOf_memo h)

/-- The receiver of a call stands in the surroundings of the call. -/
theorem Surrounds.receiver (h : st.Surrounds k π here) (hk : st.source.places[k]? = some π)
    (he : st.source.entryAt? π = some e) (hcall : e.node.kind = "method_invocation")
    (hm : e.node.receiver? = some m) :
    ∃ k' i, st.source.places[k']? = some (π ++ [i]) ∧
      st.source.entryAt? (π ++ [i]) = some ⟨e.node.kind, m⟩ ∧ st.Surrounds k' (π ++ [i]) here := by
  obtain ⟨_, hobj, hkind⟩ := Node.receiver_eq_some hm
  have hrole : e.role = .methodCall := Role.under_eq_methodCall.mpr hcall
  have hclass : st.source.opensClassAt π = false := by
    simp [Source.opensClassAt, he, hrole, Role.opensClass]
  have hclasses : here.classes = st.classesAt π := h.classes.trans (classesAt_around hclass).symm
  have hchild : ∀ i, e.node.children[i]? = some m → π ++ [i] ∈ st.source.places ∧
      st.source.entryAt? (π ++ [i]) = some ⟨e.node.kind, m⟩ := by
    intro i hi
    refine ⟨?_, by rw [Source.entryAt_child he, hi]; rfl⟩
    exact Source.child_mem_places (List.mem_of_getElem? hk) he hi (Entry.call_isEntered hkind)
  by_cases hfirst : ∀ c ∈ st.source.calls, c.ReceiverFirst
  · have hmem : e.node ∈ st.source.calls := by
      rw [Source.calls_eq_places]
      exact List.mem_filterMap.mpr ⟨π, List.mem_of_getElem? hk, by simp [he, Entry.call?, hcall]⟩
    have hhead := hfirst e.node hmem m hobj
    rw [List.head?_eq_getElem?] at hhead
    obtain ⟨hplace, hentry⟩ := hchild 0 hhead
    refine ⟨k + 1, 0, Source.first_child_next hk hplace, hentry, ?_, ?_⟩
    · rwa [List.dropLast_concat]
    · intro _ x
      rw [List.dropLast_concat, Source.visible_call hk he hcall, h.meanings hfirst]
  · obtain ⟨i, hi⟩ := List.mem_iff_getElem?.mp (Node.receiver_mem hm)
    obtain ⟨hplace, hentry⟩ := hchild i hi
    obtain ⟨k', hk'⟩ := List.mem_iff_getElem?.mp hplace
    refine ⟨k', i, hk', hentry, ?_, fun hall => absurd hall hfirst⟩
    rwa [List.dropLast_concat]

/-- What is remembered of a call, or comes of it afresh, arises where the call stands. -/
theorem remembered_sourced (hsur : st.Surrounds k π here) (hk : st.source.places[k]? = some π)
    (he : st.source.entryAt? π = some e) (hcall : e.node.kind = "method_invocation")
    (hmemo : st.Sourced memo)
    (hfresh : ∀ outcome after, (st.freshCall here chained memo e.node).Yields (outcome, after) →
      st.Sourced after)
    (h : (remembered (st.freshCall here chained) memo e.node).Yields (outcome, memo')) :
    st.Sourced memo' ∧ ∀ res, outcome = .ok res → st.Arises e.node.span res := by
  unfold remembered at h
  split at h
  · rename_i known hknown
    obtain ⟨rfl, rfl⟩ := Inquiry.yields_pair.mp h
    refine ⟨hmemo, ?_⟩
    intro res hres
    cases hres
    obtain ⟨before, after, hsplit, -⟩ := List.lookup_eq_some_iff.mp hknown
    exact hmemo _ _ (by rw [hsplit]; simp [Node.span])
  · rw [Inquiry.yields_bind] at h
    obtain ⟨⟨verdict, after⟩, hverdict, h⟩ := h
    have hafter := hfresh verdict after hverdict
    cases verdict with
    | error crash =>
      obtain ⟨rfl, rfl⟩ := Inquiry.yields_pair.mp h
      exact ⟨hafter, nofun⟩
    | ok res =>
      obtain ⟨rfl, rfl⟩ := Inquiry.yields_pair.mp h
      have harises : st.Arises e.node.span res :=
        ⟨k, π, e, here, chained, memo, after, hk, he, hcall, rfl, hsur, hverdict⟩
      constructor
      · intro key other hmem
        rcases List.mem_cons.mp hmem with hnew | hold
        · cases hnew
          exact harises
        · exact hafter key other hold
      · intro other hother
        cases hother
        exact harises

theorem resolveCall_sourced (depth : Nat) (hsur : st.Surrounds k π here)
    (hk : st.source.places[k]? = some π) (he : st.source.entryAt? π = some e)
    (hcall : e.node.kind = "method_invocation") (hmemo : st.Sourced memo)
    (h : (st.resolveCall here depth memo e.node).Yields (outcome, memo')) :
    st.Sourced memo' ∧ ∀ res, outcome = .ok res → st.Arises e.node.span res := by
  induction depth generalizing k π e memo memo' outcome with
  | zero =>
    refine remembered_sourced hsur hk he hcall hmemo ?_ h
    intro verdict after hverdict
    rcases freshCall_memo hverdict with rfl | ⟨inner, m, received, hnone, _, _⟩
    · exact hmemo
    · cases hnone
  | succ depth ih =>
    refine remembered_sourced hsur hk he hcall hmemo ?_ h
    intro verdict after hverdict
    rcases freshCall_memo hverdict with rfl | ⟨inner, m, received, hsome, hm, hinner⟩
    · exact hmemo
    · cases hsome
      obtain ⟨k', i, hk', hentry, hsur'⟩ := hsur.receiver hk he hcall hm
      have hkind := (Node.receiver_eq_some hm).2.2
      exact (ih hsur' hk' hentry hkind hmemo hinner).1

theorem Enters.surrounds {p q : Progress} (h : st.Enters k e p q)
    (hk : st.source.places[k]? = some π) : st.Surrounds k π p.here :=
  ⟨(h.classes hk).1, fun _ x => (h.lookups hk x).1⟩

theorem linkCall_sourced {p q : Progress} (h : st.Enters k e p q) (hrole : e.role = .methodCall)
    (hmemo : st.Sourced p.calls) : st.Sourced q.calls := by
  obtain ⟨π, hk, hat⟩ := h.entryAt
  have hcall := Role.under_eq_methodCall.mp hrole
  have hsur := h.surrounds hk
  obtain ⟨_, _, _, _, _, hq⟩ := h
  rw [enter_methodCall hrole] at hq
  rcases linkCall_yields hq with ⟨_, rfl⟩ | ⟨nameNode, outcome, calls, _, hresolved, hq⟩
  · exact hmemo
  · have hcalls := (resolveCall_sourced _ hsur hk hat hcall hmemo hresolved).1
    rcases hq with ⟨res, _, rfl⟩ | ⟨crash, _, rfl⟩
    · rwa [recorded_calls]
    · exact hcalls

theorem importPass_calls {p : Progress} (h : st.importPass.Yields p) : p.calls = [] := by
  refine importPass_invariant (P := fun r => r.calls = []) ?_ h rfl
  intro d p q hp hq
  rw [linkImport_yields hq]
  split
  · rw [recorded_calls, hp]
  · exact hp

/-- Wherever a pass stands, all that it remembers came about where it stands. -/
theorem Standing.sourced {done work : List Work} {p : Progress} (h : st.Standing done work p) :
    st.Sourced p.calls := by
  obtain ⟨start, hstart, hturns⟩ := h
  induction hturns with
  | start =>
    rw [importPass_calls hstart]
    nofun
  | turn hbefore hw ih =>
    rcases perform_cases hw with ⟨_, _, rfl, rfl⟩ | ⟨_, _, rfl, _, rfl⟩ | ⟨e, rfl, he, hq⟩
    · exact ih
    · exact ih
    · rcases enter_cases hq with ⟨_, htype⟩ | ⟨hrole, _⟩ | rfl
      · rcases linkType_yields htype with ⟨_, rfl⟩ | ⟨name, _, rfl⟩
        · exact ih
        · rwa [recorded_calls]
      · exact linkCall_sourced ⟨_, _, ⟨start, hstart, hbefore⟩, rfl, he, hq⟩ hrole ih
      · exact ih

/-- A call that is entered is passed over if it has no name. Else what it comes to where it stands is
recorded, or a crash is. -/
theorem Enters.call {p q : Progress} (hspans : (st.source.calls.map Node.span).Nodup)
    (h : st.Enters k e p q) (hk : st.source.places[k]? = some π) (hrole : e.role = .methodCall) :
    (e.node.child? "name" = none ∧ q = p) ∨ ∃ name calls, e.node.child? "name" = some name ∧
      ((∃ res here chained memo memo', st.Surrounds k π here ∧
          (st.freshCall here chained memo e.node).Yields (.ok res, memo') ∧
          q = st.recorded { p with calls } name "method" res) ∨
        ∃ crash, q = Progress.countMishap { p with calls } (.crash crash)) := by
  have hat := h.entry hk
  have hcall := Role.under_eq_methodCall.mp hrole
  have hsur := h.surrounds hk
  obtain ⟨_, _, hstanding, _, _, hq⟩ := h
  rw [enter_methodCall hrole] at hq
  rcases linkCall_yields hq with hnone | ⟨name, outcome, calls, hname, hresolved, hq⟩
  · exact .inl hnone
  refine .inr ⟨name, calls, hname, ?_⟩
  rcases hq with ⟨res, rfl, rfl⟩ | ⟨crash, _, rfl⟩
  · have hwhere := (resolveCall_sourced _ hsur hk hat hcall hstanding.sourced hresolved).2 res rfl
    obtain ⟨k', σ, f, here, chained, memo, memo', hk', hf, hcall', hspan, hsur', hfresh⟩ := hwhere
    obtain rfl := Source.place_of_span hspans hk hk' hat hf hcall hcall' hspan.symm
    obtain rfl : π = σ := Option.some.inj (hk.symm.trans hk')
    obtain rfl : e = f := Option.some.inj (hat.symm.trans hf)
    exact .inl ⟨res, here, chained, memo, memo', hsur', hfresh, rfl⟩
  · exact .inr ⟨crash, rfl⟩

/-- What is not resolved gets no link. -/
theorem linksFor_eq_nil {node : Node} {kind : String} (h : ∀ t, res ≠ .resolved t) :
    st.linksFor node kind res = [] := by
  rw [List.eq_nil_iff_forall_not_mem]
  intro l hl
  obtain ⟨t, ht, -⟩ := mem_linksFor.mp hl
  exact h t ht

/-- From `p` to `q` the call of this name got a link to the method that is found from this class on, or
a class that had to be read for it could not be, which costs an error. -/
def LinksMethodOf (st : Setting) (p q : Progress) (name : Node) (c : String) : Prop :=
  ∃ archive, st.locate? c = some archive ∧
    ((∃ t, (st.locateMethod ⟨archive, c, none, none⟩ (st.source.text name)).Yields (.resolved t) ∧
      q.links = p.links ++ st.linksFor name "method" (.resolved t)) ∨
    q.links = p.links ∧ q.tally.errors = p.tally.errors + 1)

/-- A call comes to this where the classes that fit own its method: to the method found from the one
that fits, or to none if no class does. -/
def ComesOf (st : Setting) (name : Node) (Fits : String → Prop) (res : Resolution) : Prop :=
  (∃ c archive, Fits c ∧ st.locate? c = some archive ∧
      (st.locateMethod ⟨archive, c, none, none⟩ (st.source.text name)).Yields res) ∨
    (∀ c, ¬ Fits c) ∧ ∀ t, res ≠ .resolved t

/-- A call whose method belongs to the class that fits, wherever it is resolved, is linked to that
class's method, and not at all if no class fits. -/
theorem Enters.links_method {p q : Progress} {name : Node} {Fits : String → Prop}
    (hspans : (st.source.calls.map Node.span).Nodup) (h : st.Enters k e p q)
    (hk : st.source.places[k]? = some π) (hrole : e.role = .methodCall)
    (hname : e.node.child? "name" = some name) (hloaded : ∀ c, Fits c → st.IsLoaded c)
    (hunique : ∀ c d, Fits c → Fits d → c = d)
    (hfresh : ∀ here chained memo memo' res, st.Surrounds k π here →
      (st.freshCall here chained memo e.node).Yields (.ok res, memo') → st.ComesOf name Fits res) :
    ((∀ c, ¬ Fits c) → q.links = p.links) ∧ ∀ c, Fits c → st.LinksMethodOf p q name c := by
  rcases h.call hspans hk hrole with ⟨hnone, -⟩ | ⟨name', calls, hname', hq⟩
  · rw [hnone] at hname
    cases hname
  obtain rfl : name' = name := Option.some.inj (hname'.symm.trans hname)
  rcases hq with ⟨res, here, chained, memo, memo', hsur, hyields, rfl⟩ | ⟨crash, rfl⟩
  · have hlinks := st.recorded_links { p with calls } name' "method" res
    rcases hfresh here chained memo memo' res hsur hyields with
      ⟨c, archive, hc, hat, hmethod⟩ | ⟨hno, hres⟩
    · obtain ⟨t, rfl⟩ := locateMethod_resolves hmethod
      refine ⟨fun hnot => absurd hc (hnot c), ?_⟩
      intro d hd
      obtain rfl := hunique c d hc hd
      exact ⟨archive, hat, .inl ⟨t, hmethod, hlinks⟩⟩
    · refine ⟨fun _ => by rw [hlinks, linksFor_eq_nil hres, List.append_nil], ?_⟩
      intro d hd
      exact absurd hd (hno d)
  · refine ⟨fun _ => rfl, ?_⟩
    intro c hc
    obtain ⟨archive, hat⟩ := hloaded c hc
    exact ⟨archive, hat, .inr ⟨rfl, rfl⟩⟩

end Setting
end SourceLinks
