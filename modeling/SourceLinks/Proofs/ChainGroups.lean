import Mathlib.Data.List.Pairwise
import SourceLinks.Proofs.ChainLimit

namespace SourceLinks

/-- A call of a chain other than its outermost one is the receiver of another call of the chain. -/
theorem Node.eq_or_receiver_of_mem_chain {n x : Node} (h : x ∈ n.chain) :
    x = n ∨ ∃ e ∈ n.chain, e.receiver? = some x := by
  induction n using Node.chain_induction with
  | last n hn =>
    rw [Node.chain_last hn, List.mem_singleton] at h
    exact .inl h
  | more n m hm ih =>
    rw [Node.chain_more hm] at h ⊢
    rcases List.mem_cons.mp h with rfl | h
    · exact .inl rfl
    · right
      rcases ih h with rfl | ⟨e, he, hrec⟩
      · exact ⟨n, by simp, hm⟩
      · exact ⟨e, List.mem_cons_of_mem n he, hrec⟩

/-- A call stands in one chain only, if no call stands twice in all of them. -/
theorem Site.eq_of_common_call {heads : List Site} {s t : Site} {x : Node}
    (hcalls : (heads.flatMap Site.calls).Nodup) (hs : s ∈ heads) (ht : t ∈ heads)
    (hxs : x ∈ s.calls) (hxt : x ∈ t.calls) : s = t := by
  have hdisjoint := (List.nodup_flatMap.mp hcalls).2
  have hsymm : Std.Symm (Function.onFun List.Disjoint Site.calls) :=
    ⟨fun _ _ h _ hleft hright => h hright hleft⟩
  by_contra hne
  exact hdisjoint.forall hs ht hne hxs hxt

namespace Setting
variable {st : Setting} {answers : Answers} {here there : Surroundings} {n x : Node} {s : Site}
  {f : Finding}

/-- What comes of the last of these calls, each of them made on what the one before it returns. -/
def leftToRight (st : Setting) (answers : Answers) (here : Surroundings) :
    List Node → Option Verdict
  | [] => none
  | first :: others =>
    some (others.foldl (fun before n => st.onward answers n before) (st.settled answers here first))

theorem leftToRight_snoc (calls : List Node) (hne : calls ≠ []) :
    st.leftToRight answers here (calls ++ [n]) =
      (st.leftToRight answers here calls).map (st.onward answers n) := by
  cases calls with
  | nil => exact absurd rfl hne
  | cons first others => simp [leftToRight]

/-- Without a limit, a chain is gone through from its innermost call outwards. -/
theorem leftToRight_chain (n : Node) :
    st.leftToRight answers here n.chain.reverse = some (st.unlimited answers here n) := by
  induction n using Node.chain_induction with
  | last n hn =>
    rw [Node.chain_last hn, unlimited_last hn]
    rfl
  | more n m hm ih =>
    have hne : m.chain.reverse ≠ [] := by
      simpa using List.ne_nil_of_mem m.mem_chain_self
    rw [Node.chain_more hm, List.reverse_cons, leftToRight_snoc _ hne, ih, unlimited_more hm,
      Option.map_some]

/-- Of a chain of so many calls, groups of one more than the limit are taken off the outer end until
only one group is left; this call is in it. -/
def Spares (st : Setting) (whole : Nat) (x : Node) : Prop :=
  x.chain.length ≤ (whole - 1) % (st.config.maxChainDepth.toNat + 1) + 1

theorem judged_spared {whole : Nat} (h : st.Spares whole x) :
    st.judged answers whole here x = st.unlimited answers here x :=
  if_pos h

theorem judged_cut {whole : Nat} (h : ¬ st.Spares whole x) :
    ∃ left, st.judged answers whole here x = .ok (blocked left) :=
  ⟨_, if_neg h⟩

/-- A pass that is not cancelled visits every call. -/
theorem exists_site_of_call (hx : x ∈ st.source.calls) :
    ∃ here, .call x here ∈ st.passSites fun _ => false := by
  have hcalls :
      (st.sites {} (st.agenda fun _ => false)).filterMap Site.call? = st.source.calls := by
    rw [agenda, Node.uncancelled_never, calls_forest fun c _ => sites_calls c _]
    rfl
  rw [← hcalls, List.mem_filterMap] at hx
  obtain ⟨s, hs, hcall⟩ := hx
  cases s with
  | call y here =>
    cases hcall
    exact ⟨here, List.mem_append_right _ hs⟩
  | _ => cases hcall

theorem mem_chainFindings_call {c : Node} :
    f ∈ st.chainFindings answers (.call c here) ↔
      ∃ x ∈ c.chain, ∃ name, x.child? "name" = some name ∧
        f = ⟨.call x here, name, "method", st.judged answers c.chain.length here x⟩ := by
  simp only [chainFindings, findings, Site.chained, List.mem_flatMap, List.mem_map, List.length_map,
    Option.mem_toList]
  constructor
  · rintro ⟨_, ⟨x, hx, rfl⟩, hf⟩
    obtain ⟨name, hname, rfl⟩ := Option.map_eq_some_iff.mp hf
    exact ⟨x, hx, name, hname, rfl⟩
  · rintro ⟨x, hx, name, hname, rfl⟩
    exact ⟨_, ⟨x, hx, rfl⟩, by simp [finding?, hname]⟩

theorem finding_site {verdict : Surroundings → Node → Verdict}
    (h : st.finding? verdict s = some f) : f.site = s := by
  cases s with
  | imported d =>
    cases h
    rfl
  | _ =>
    obtain ⟨_, _, rfl⟩ := Option.map_eq_some_iff.mp h
    rfl

theorem chainFindings_site (h : f ∈ st.chainFindings answers s) : f.site ∈ s.chained := by
  obtain ⟨t, ht, hf⟩ := List.mem_flatMap.mp h
  rw [finding_site (Option.mem_toList.mp hf)]
  exact ht

section Heads
variable {heads : List Site} {c : Node}

/-- A chain starts where its outermost call is visited. -/
theorem head_of_outermost (hsite : .call c here ∈ heads.flatMap Site.chained)
    (houter : ∀ e ∈ heads.flatMap Site.calls, e.receiver? ≠ some c) : .call c here ∈ heads := by
  obtain ⟨s, hs, hmem⟩ := List.mem_flatMap.mp hsite
  obtain ⟨n, rfl, hc⟩ := Site.mem_chained.mp hmem
  rcases Node.eq_or_receiver_of_mem_chain hc with rfl | ⟨e, he, hrec⟩
  · exact hs
  · exact absurd hrec (houter e (List.mem_flatMap.mpr ⟨_, hs, he⟩))

/-- What is found at a call of a chain is what the call is judged to come to there. -/
theorem finding_of_chain (hcalls : (heads.flatMap Site.calls).Nodup) (hhead : .call c here ∈ heads)
    (hx : x ∈ c.chain) (hf : f ∈ heads.flatMap (st.chainFindings answers))
    (hsite : f.site = .call x there) :
    f ∈ st.chainFindings answers (.call c here) ∧ there = here ∧
      f.verdict = st.judged answers c.chain.length here x := by
  obtain ⟨s, hs, hf⟩ := List.mem_flatMap.mp hf
  have hmem := chainFindings_site hf
  rw [hsite] at hmem
  obtain ⟨n, rfl, hn⟩ := Site.mem_chained.mp hmem
  obtain ⟨rfl, rfl⟩ : n = c ∧ there = here := by
    simpa using Site.eq_of_common_call hcalls hs hhead hn hx
  obtain ⟨y, _, _, _, rfl⟩ := mem_chainFindings_call.mp hf
  cases hsite
  exact ⟨hf, rfl, rfl⟩

end Heads

/-- Where a chain keeps another limit, a call that is spared under the first comes to the same. -/
theorem spared_withLimit {c : Node} {d : Int} (hfits : c.chain.length ≤ d.toNat + 1)
    (hf : f ∈ st.chainFindings answers (.call c here)) (hsite : f.site = .call x here)
    (hspared : st.Spares c.chain.length x) :
    f ∈ (st.withLimit d).chainFindings answers (.call c here) := by
  obtain ⟨y, hy, name, hname, rfl⟩ := mem_chainFindings_call.mp hf
  cases hsite
  have hle := (Node.chain_suffix hy).length_le
  have hpos := c.length_chain_pos
  have hmod : (c.chain.length - 1) % (d.toNat + 1) = c.chain.length - 1 :=
    Nat.mod_eq_of_lt (by omega)
  refine mem_chainFindings_call.mpr ⟨x, hy, name, hname, ?_⟩
  have hkept : (st.withLimit d).Spares c.chain.length x := by
    simp only [Spares, withLimit, hmod]
    omega
  rw [judged_spared hspared, judged_spared hkept, (st.agrees_withLimit d).unlimited]

/-- The depth limit spares the innermost calls of each chain.

Let no two calls cover the same octets and every receiver be its call's first child. The links of a
pass are those of its findings, and a pass that is not cancelled visits every call. Take any chain
from its outermost call on, the one that no other is made on. Each of its calls with a name has a
finding, in the surroundings of the outermost one. The number of a call, counted from the innermost,
is the length of its own chain. If the limit spares a call, its outcome is that of the chain gone
through from the inside outwards, and it is found under every limit that the chain keeps. All other
calls are without a link. -/
theorem limit_spares_innermost_calls (st : Setting) (hspans : (st.source.calls.map Node.span).Nodup)
    (hfirst : ∀ c ∈ st.source.calls, c.ReceiverFirst) (cancelled : Nat → Bool) (corpus : Corpus) :
    ((st.resolve cancelled).run corpus).1.1.links =
      (st.found corpus.answers st.remembering cancelled).flatMap st.linksAt ∧
    (∀ c ∈ st.source.calls, ∃ here, .call c here ∈ st.passSites fun _ => false) ∧
    ∀ c here, .call c here ∈ st.passSites cancelled →
      (∀ e ∈ st.source.calls, e.receiver? ≠ some c) → ∀ x ∈ c.chain,
        ((x.child? "name").isSome = true →
          ∃ f ∈ st.found corpus.answers st.remembering cancelled, f.site = .call x here) ∧
        ∀ f ∈ st.found corpus.answers st.remembering cancelled, ∀ there, f.site = .call x there →
          there = here ∧
          (st.Spares c.chain.length x →
            st.leftToRight corpus.answers here x.chain.reverse = some f.verdict ∧
            ∀ d : Int, c.chain.length ≤ d.toNat + 1 →
              f ∈ (st.withLimit d).found corpus.answers (st.withLimit d).remembering cancelled) ∧
          (¬ st.Spares c.chain.length x → st.linksAt f = []) := by
  obtain ⟨heads, more, hheads, hcalls⟩ := passSites_chained hfirst cancelled
  have hfound : st.found corpus.answers st.remembering cancelled =
      heads.flatMap (st.chainFindings corpus.answers) := found_chains hspans hheads hcalls
  refine ⟨?_, fun c hc => exists_site_of_call hc, ?_⟩
  · rw [links_chains st hspans hheads hcalls, hfound, List.flatMap_assoc]
  intro c here hsite houter x hx
  have hnodup : (heads.flatMap Site.calls).Nodup := by
    have hall := hspans.of_map
    rw [← hcalls, List.flatMap_append] at hall
    exact hall.of_append_left
  have hhead : .call c here ∈ heads := by
    rw [hheads] at hsite
    refine head_of_outermost hsite fun e he => houter e ?_
    rw [← hcalls, List.flatMap_append]
    exact List.mem_append_left _ he
  rw [hfound]
  constructor
  · intro hname
    obtain ⟨name, hname⟩ := Option.isSome_iff_exists.mp hname
    exact ⟨_, List.mem_flatMap.mpr ⟨_, hhead, mem_chainFindings_call.mpr ⟨x, hx, name, hname, rfl⟩⟩,
      rfl⟩
  · intro f hf there hat
    obtain ⟨hf, rfl, hverdict⟩ := finding_of_chain hnodup hhead hx hf hat
    refine ⟨rfl, ?_, ?_⟩
    · intro hspared
      refine ⟨?_, ?_⟩
      · rw [leftToRight_chain, hverdict, judged_spared hspared]
      · intro d hfits
        have hsites := ((st.agrees_withLimit d).passSites rfl cancelled).trans hheads
        have hother : (st.withLimit d).found corpus.answers (st.withLimit d).remembering cancelled =
            heads.flatMap ((st.withLimit d).chainFindings corpus.answers) :=
          found_chains hspans hsites hcalls
        rw [hother]
        exact List.mem_flatMap.mpr ⟨_, hhead, spared_withLimit hfits hf hat hspared⟩
    · intro hcut
      obtain ⟨left, hleft⟩ := judged_cut hcut
      exact linksAt_blocked (hverdict.trans hleft)

/-- Under a limit of one, the two inner ones of four calls are spared and the outer ones are not. -/
theorem limit_spares_two_of_four :
    let st := nexts 3 1
    let found := st.found st.corpus.answers st.remembering fun _ => false
    (st.source.calls.map Node.span).Nodup ∧ (∀ c ∈ st.source.calls, c.ReceiverFirst) ∧
      ((st.resolve fun _ => false).run st.corpus).1.1.links = found.flatMap st.linksAt ∧
      (∃ f ∈ found, f.site = .call (.nexts "object" 1) {} ∧
        st.leftToRight st.corpus.answers {} (Node.nexts "object" 1).chain.reverse =
          some f.verdict) ∧
      ∃ f ∈ found, f.site = .call (.nexts "object" 2) {} ∧ st.linksAt f = [] := by
  intro st found
  have hspans : (st.source.calls.map Node.span).Nodup := by decide +kernel
  have hfirst : ∀ c ∈ st.source.calls, c.ReceiverFirst := by decide +kernel
  obtain ⟨hlinks, _, hchain⟩ :=
    st.limit_spares_innermost_calls hspans hfirst (fun _ => false) st.corpus
  have hsite : .call (.nexts "" 3) {} ∈ st.passSites fun _ => false := List.mem_of_mem_head? rfl
  have houter : ∀ e ∈ st.source.calls, e.receiver? ≠ some (.nexts "" 3) := by
    intro e _ he
    have hfield := List.find?_some (Node.receiver_eq_some he).2.1
    simp [Node.nexts] at hfield
  have hthird : Node.nexts "object" 2 ∈ (Node.nexts "" 3).chain :=
    Node.mem_chain_of_receiver (Node.mem_chain_self _) rfl
  have hsecond : Node.nexts "object" 1 ∈ (Node.nexts "" 3).chain :=
    Node.mem_chain_of_receiver hthird rfl
  refine ⟨hspans, hfirst, hlinks, ?_, ?_⟩
  · obtain ⟨hcome, hfound⟩ := hchain _ _ hsite houter (.nexts "object" 1) hsecond
    obtain ⟨f, hf, hat⟩ := hcome rfl
    have hspared : st.Spares (Node.nexts "" 3).chain.length (.nexts "object" 1) := by
      unfold Spares
      decide +kernel
    exact ⟨f, hf, hat, ((hfound f hf _ hat).2.1 hspared).1⟩
  · obtain ⟨hcome, hfound⟩ := hchain _ _ hsite houter (.nexts "object" 2) hthird
    obtain ⟨f, hf, hat⟩ := hcome rfl
    have hcut : ¬ st.Spares (Node.nexts "" 3).chain.length (.nexts "object" 2) := by
      unfold Spares
      decide +kernel
    exact ⟨f, hf, hat, (hfound f hf _ hat).2.2 hcut⟩

/-- Two calls one on another, and a call without a name that is made on them. -/
def nameless : Setting :=
  { nexts 1 1 with
    source := {
      document := ⟨"Main.next().next()()".toList, "demo/Main", "demo.jar"⟩
      root := .plain "program" 0 20
        [⟨"method_invocation", "", true, false, 0, 20, [.nexts "object" 1]⟩] } }

/-- A call without a name ends a chain. Of three calls, each the object of the next, a limit of one
would spare the innermost only. But the outermost has no name, and both others are linked. -/
theorem nameless_call_ends_chain :
    let outermost := Node.mk "method_invocation" "" true false 0 20 [.nexts "object" 1]
    (3 - 1) % (nameless.config.maxChainDepth.toNat + 1) + 1 = 1 ∧
      nameless.source.calls = [outermost, .nexts "object" 1, .nexts "object" 0] ∧
      (nameless.source.calls.map Node.span).Nodup ∧
      (∀ c ∈ nameless.source.calls, c.ReceiverFirst) ∧
      outermost.child? "object" = some (.nexts "object" 1) ∧
      (Node.nexts "object" 1).child? "object" = some (.nexts "object" 0) ∧
      ((Node.nexts "object" 0).child? "object").map Node.kind = some "identifier" ∧
      (∀ e ∈ nameless.source.calls, e.child? "object" ≠ some outermost) ∧
      ((nameless.resolve fun _ => false).run ⟨[Archive.pair]⟩).1.1.links =
        [nextLink 1, nextLink 0] := by
  intro outermost
  refine ⟨rfl, rfl, by decide +kernel, by decide +kernel, rfl, rfl, rfl, ?_, by decide +kernel⟩
  intro e _ he
  have hfield := List.find?_some he
  simp [outermost] at hfield

end Setting
end SourceLinks
