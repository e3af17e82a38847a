import Mathlib.Data.List.Flatten
import SourceLinks.Proofs.Agreement
import SourceLinks.Proofs.Remembering

namespace SourceLinks

theorem Node.mem_chain_of_receiver {n m e : Node} (he : e ∈ m.chain) (hn : e.receiver? = some n) :
    n ∈ m.chain := by
  refine (Node.chain_suffix he).subset ?_
  rw [Node.chain_more hn]
  exact List.mem_cons_of_mem _ n.mem_chain_self

namespace Setting
variable {st : Setting} {answers : Answers} {here : Surroundings} {n : Node}

/-- The same pass with another limit. -/
def withLimit (st : Setting) (limit : Int) : Setting :=
  { st with config := { st.config with maxChainDepth := limit } }

theorem agrees_withLimit (st : Setting) (limit : Int) : st.Agrees (st.withLimit limit) :=
  ⟨⟨rfl, fun _ => rfl, rfl⟩, rfl⟩

/-- The first call of a chain is not itself a receiver. -/
theorem outermost_of_head {heads : List Site} (hcalls : (heads.flatMap Site.calls).Nodup)
    (hn : .call n here ∈ heads) : ∀ e ∈ heads.flatMap Site.calls, e.receiver? ≠ some n := by
  intro e he hrec
  -- A chain that has the call would have its receiver too, which is the first of another chain.
  have hclosed : ∀ sites : List Site, e ∈ sites.flatMap Site.calls → n ∈ sites.flatMap Site.calls := by
    intro sites he
    obtain ⟨s, hs, hmem⟩ := List.mem_flatMap.mp he
    refine List.mem_flatMap.mpr ⟨s, hs, ?_⟩
    cases s with
    | call m there => exact Node.mem_chain_of_receiver hmem hrec
    | _ => cases hmem
  obtain ⟨before, after, rfl⟩ := List.append_of_mem hn
  rw [List.flatMap_append, List.flatMap_cons, Site.calls] at he hcalls
  obtain ⟨_, hrest, hbefore⟩ := List.nodup_append.mp hcalls
  obtain ⟨_, _, hafter⟩ := List.nodup_append.mp hrest
  rcases List.mem_append.mp he with he | he
  · exact hbefore n (hclosed before he) n (List.mem_append_left _ n.mem_chain_self) rfl
  · rcases List.mem_append.mp he with he | he
    · have hlen := (Node.chain_suffix he).length_le
      rw [Node.chain_more hrec, List.length_cons] at hlen
      omega
    · exact hafter n n.mem_chain_self n (hclosed after he) rfl

theorem judged_withLimit (d : Int) (whole : Nat) (here : Surroundings) (x : Node) :
    (st.withLimit d).judged answers whole here x =
      if x.chain.length ≤ (whole - 1) % (d.toNat + 1) + 1 then st.unlimited answers here x
      else .ok (blocked (d.toNat - (whole - x.chain.length) % (d.toNat + 1))) := by
  rw [judged, (st.agrees_withLimit d).unlimited]
  rfl

/-- The links of a chain under one limit are among those under another if the last group that the
limit makes of its calls is not larger. -/
theorem chain_links_sublist {s : Site} {d d' : Int}
    (hmod : (s.chained.length - 1) % (d.toNat + 1) ≤ (s.chained.length - 1) % (d'.toNat + 1)) :
    (((st.withLimit d).chainFindings answers s).flatMap st.linksAt).Sublist
      (((st.withLimit d').chainFindings answers s).flatMap st.linksAt) := by
  rw [chainFindings, chainFindings, (st.agrees_withLimit d).findings,
    (st.agrees_withLimit d').findings, findings, findings, List.flatMap_assoc, List.flatMap_assoc]
  refine List.Sublist.flatMap_right _ fun x _ => ?_
  cases x with
  | call x here =>
    cases hname : x.child? "name" with
    | none => simp [finding?, hname]
    | some name =>
      simp only [finding?, hname, Option.map_some, Option.toList_some, List.flatMap_singleton]
      by_cases hx : x.chain.length ≤ (s.chained.length - 1) % (d.toNat + 1) + 1
      · rw [judged_withLimit, judged_withLimit, if_pos hx, if_pos (by omega)]
      · rw [judged_withLimit d, if_neg hx, linksAt_blocked rfl]
        exact List.nil_sublist _
  | _ => exact List.Sublist.refl _

/-- Another limit keeps the links where it leaves no smaller a group at the end of any chain.

Let no two calls cover the same octets and every receiver be its call's first child. Under a limit, a
chain of calls keeps the links of those that are left when groups of one more than the limit are
taken off its outer end until no group is left behind the last. So the table under one limit is part
of the table under another, in the same order, if for every chain the first limit leaves no more
calls than the second; above all if the second limit holds for every chain. -/
theorem links_kept_by_limit (st : Setting) (hspans : (st.source.calls.map Node.span).Nodup)
    (hfirst : ∀ c ∈ st.source.calls, c.ReceiverFirst) (d d' : Int) (cancelled : Nat → Bool)
    (corpus : Corpus) :
    ((∀ c ∈ st.source.calls, (∀ e ∈ st.source.calls, e.receiver? ≠ some c) →
        (c.chain.length - 1) % (d.toNat + 1) ≤ (c.chain.length - 1) % (d'.toNat + 1)) →
      ((((st.withLimit d).resolve cancelled).run corpus).1.1.links).Sublist
        (((st.withLimit d').resolve cancelled).run corpus).1.1.links) ∧
    ((∀ c ∈ st.source.calls, c.chain.length ≤ d'.toNat + 1) →
      ((((st.withLimit d).resolve cancelled).run corpus).1.1.links).Sublist
        (((st.withLimit d').resolve cancelled).run corpus).1.1.links) := by
  obtain ⟨heads, more, hheads, hcalls⟩ := passSites_chained hfirst cancelled
  have hlinks : ∀ limit, (((st.withLimit limit).resolve cancelled).run corpus).1.1.links =
      heads.flatMap fun s => ((st.withLimit limit).chainFindings corpus.answers s).flatMap st.linksAt := by
    intro limit
    have hsites := ((st.agrees_withLimit limit).passSites rfl cancelled).trans hheads
    exact links_chains (st.withLimit limit) hspans hsites hcalls corpus
  have hall : (∀ c ∈ st.source.calls, (∀ e ∈ st.source.calls, e.receiver? ≠ some c) →
        (c.chain.length - 1) % (d.toNat + 1) ≤ (c.chain.length - 1) % (d'.toNat + 1)) →
      ((((st.withLimit d).resolve cancelled).run corpus).1.1.links).Sublist
        (((st.withLimit d').resolve cancelled).run corpus).1.1.links := by
    intro hmod
    rw [hlinks, hlinks]
    refine List.Sublist.flatMap_right _ fun s hs => chain_links_sublist ?_
    cases s with
    | call n here =>
      have hhead : Site.call n here ∈ heads ++ more := List.mem_append_left _ hs
      have hn : n ∈ st.source.calls := by
        rw [← hcalls]
        exact List.mem_flatMap.mpr ⟨_, hhead, n.mem_chain_self⟩
      have houter : ∀ e ∈ st.source.calls, e.receiver? ≠ some n := by
        rw [← hcalls]
        exact outermost_of_head (by rw [hcalls]; exact hspans.of_map _) hhead
      rw [Site.chained, List.length_map]
      exact hmod n hn houter
    | _ => exact Nat.le_refl _
  refine ⟨hall, fun hfits => hall fun c hc _ => ?_⟩
  rw [Nat.mod_eq_of_lt (a := c.chain.length - 1) (b := d'.toNat + 1)]
  · exact Nat.mod_le _ _
  · have hle := hfits c hc
    have hpos := c.length_chain_pos
    omega

/-- Four calls one on another. The limit of one leaves two of them, that of zero only one, and that
of three all. -/
theorem links_kept_by_limit_for_four :
    (((((nexts 3 0).withLimit 0).resolve fun _ => false).run ⟨[Archive.pair]⟩).1.1.links).Sublist
      ((((nexts 3 0).withLimit 1).resolve fun _ => false).run ⟨[Archive.pair]⟩).1.1.links ∧
    (((((nexts 3 0).withLimit 1).resolve fun _ => false).run ⟨[Archive.pair]⟩).1.1.links).Sublist
      ((((nexts 3 0).withLimit 3).resolve fun _ => false).run ⟨[Archive.pair]⟩).1.1.links := by
  have hkept := (nexts 3 0).links_kept_by_limit (by decide +kernel) (by decide +kernel)
  refine ⟨(hkept 0 1 _ _).1 fun c _ _ => ?_, (hkept 1 3 _ _).2 (by decide +kernel)⟩
  rw [show (0 : Int).toNat + 1 = 1 from rfl, Nat.mod_one]
  exact Nat.zero_le _

/-- The link of a call of `next` on the result of `k` others. -/
def nextLink (k : Nat) : Link :=
  ⟨5 + 7 * k, 9 + 7 * k, 1, 6 + 7 * k, "demo.jar", "demo/Base", some "next", "method"⟩

/-- A call that covers the same octets as one of the five calls after it, the last but one. -/
def shared : Setting :=
  ofText [Archive.pair] "Main.next().next().next().next().next()"
    (.plain "program" 0 39 [{ Node.nexts "" 0 with stop := 18 }, .nexts "" 4])

/-- A call on the result of another one, which is made on a variable. Its declaration stands between
the two. -/
def belated : Setting :=
  ofText [Archive.pair] "Main.next().next()" (.plain "program" 0 18 [
    ⟨"method_invocation", "", true, false, 0, 18, [
      .plain "local_variable_declaration" 0 9 [
        ⟨"type_identifier", "type", true, false, 0, 4, []⟩,
        .plain "variable_declarator" 5 9 [.nextName 0]],
      ⟨"method_invocation", "object", true, false, 5, 18, [
        ⟨"identifier", "object", true, false, 5, 9, []⟩, .nextName 1]⟩,
      .nextName 1]⟩])

/-- With a limit of two instead of one, four calls one on another lose a link: the calls are cut off in
groups of three then, and the last group is the innermost call alone.

A higher limit can lose links for two more reasons. Where calls share their octets, one that is
remembered makes a chain shorter. Where a receiver does not come first, a call can be resolved before
what it depends on is declared. -/
theorem higher_limit_loses_a_link :
    (nexts 3 2 = (nexts 3 1).withLimit 2 ∧
      (((nexts 3 1).resolve fun _ => false).run ⟨[Archive.pair]⟩).1.1.links =
        [nextLink 1, nextLink 0] ∧
      (((nexts 3 2).resolve fun _ => false).run ⟨[Archive.pair]⟩).1.1.links = [nextLink 0] ∧
      ¬ ((((nexts 3 1).resolve fun _ => false).run ⟨[Archive.pair]⟩).1.1.links).Sublist
        (((nexts 3 2).resolve fun _ => false).run ⟨[Archive.pair]⟩).1.1.links) ∧
    ((∀ c ∈ shared.source.calls, c.ReceiverFirst) ∧
      (∀ c ∈ shared.source.root.children, (c.chain.length - 1) % 2 ≤ (c.chain.length - 1) % 3) ∧
      ¬ ((((shared.withLimit 1).resolve fun _ => false).run ⟨[Archive.pair]⟩).1.1.links).Sublist
        (((shared.withLimit 2).resolve fun _ => false).run ⟨[Archive.pair]⟩).1.1.links) ∧
    (belated.source.calls.map Node.span).Nodup ∧
      (∀ c ∈ belated.source.calls, c.chain.length ≤ 2) ∧
      ¬ ((((belated.withLimit 0).resolve fun _ => false).run ⟨[Archive.pair]⟩).1.1.links).Sublist
        (((belated.withLimit 1).resolve fun _ => false).run ⟨[Archive.pair]⟩).1.1.links := by
  have hlow : (((nexts 3 1).resolve fun _ => false).run ⟨[Archive.pair]⟩).1.1.links =
      [nextLink 1, nextLink 0] := by decide +kernel
  have hhigh : (((nexts 3 2).resolve fun _ => false).run ⟨[Archive.pair]⟩).1.1.links =
      [nextLink 0] := by decide +kernel
  refine ⟨⟨rfl, hlow, hhigh, ?_⟩, ⟨?_, ?_, ?_⟩, ?_, ?_, ?_⟩
  · rw [hlow, hhigh]
    decide
  all_goals decide +kernel

end Setting
end SourceLinks
