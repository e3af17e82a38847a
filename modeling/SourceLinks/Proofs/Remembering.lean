import SourceLinks.Proofs.ChainOrder

namespace SourceLinks.Setting
variable {st : Setting} {answers : Answers} {here : Surroundings} {memo : CallMemo} {n x : Node}

/-- What a call comes to in a chain of `whole` calls. If groups of `limit + 1` calls are taken off the
chain's outer end, the calls of the last group come to what they come to without a limit, and all
others are cut off. -/
def judged (st : Setting) (answers : Answers) (whole : Nat) (here : Surroundings) (n : Node) : Verdict :=
  if n.chain.length ≤ (whole - 1) % (st.limit + 1) + 1 then st.unlimited answers here n
  else .ok (blocked (st.limit - (whole - n.chain.length) % (st.limit + 1)))

theorem judged_fits {whole : Nat} (hwhole : whole ≤ st.limit + 1) (hn : n.chain.length ≤ whole) :
    st.judged answers whole here n = st.unlimited answers here n := by
  have hpos := n.length_chain_pos
  have hmod : (whole - 1) % (st.limit + 1) = whole - 1 := Nat.mod_eq_of_lt (by omega)
  rw [judged, hmod, if_pos (by omega)]

/-- A call of an outer group, which `after` more calls of the group follow. -/
theorem judged_outer {whole after inside : Nat} (hwhole : whole = st.limit + 1 + inside)
    (hinside : 0 < inside) (hn : n.chain.length = 1 + after + inside) (hafter : after ≤ st.limit) :
    st.judged answers whole here n = .ok (blocked after) := by
  have hmod : (whole - 1) % (st.limit + 1) ≤ inside - 1 := by
    rw [show whole - 1 = st.limit + 1 + (inside - 1) by omega, Nat.add_mod_left]
    exact Nat.mod_le _ _
  have hat : (whole - n.chain.length) % (st.limit + 1) = st.limit - after := by
    rw [show whole - n.chain.length = st.limit - after by omega]
    exact Nat.mod_eq_of_lt (by omega)
  rw [judged, if_neg (by omega), hat, Nat.sub_sub_self hafter]

/-- For the calls inside it makes no difference that a group is taken off. -/
theorem judged_inner {whole inside : Nat} (hwhole : whole = st.limit + 1 + inside)
    (hinside : 0 < inside) (hn : n.chain.length ≤ inside) :
    st.judged answers whole here n = st.judged answers inside here n := by
  have hmod : (whole - 1) % (st.limit + 1) = (inside - 1) % (st.limit + 1) := by
    rw [show whole - 1 = st.limit + 1 + (inside - 1) by omega, Nat.add_mod_left]
  have hat : (whole - n.chain.length) % (st.limit + 1) =
      (inside - n.chain.length) % (st.limit + 1) := by
    rw [show whole - n.chain.length = st.limit + 1 + (inside - n.chain.length) by omega,
      Nat.add_mod_left]
  rw [judged, judged, hmod, hat]

/-- A call comes to what the rule makes of it. One without a name is not resolved at all. -/
theorem findAt_call {rule : CallRule} {verdict : Surroundings → Node → Verdict} {memo' : CallMemo}
    (h : rule.outcome answers here memo n = (verdict here n, memo')) :
    st.findAt answers rule memo (.call n here) = (st.finding? verdict (.call n here), memo') ∨
      st.findAt answers rule memo (.call n here) = (st.finding? verdict (.call n here), memo) ∧
        n.child? "name" = none := by
  cases hname : n.child? "name" with
  | none => exact .inr ⟨by simp only [findAt, finding?, hname, Option.map_none], rfl⟩
  | some name => exact .inl (by simp only [findAt, finding?, hname, h, Option.map_some])

theorem survey_cons {rule : CallRule} {s : Site} {rest : List Site} {memo' memo'' : CallMemo}
    {verdict : Surroundings → Node → Verdict}
    (hs : st.findAt answers rule memo s = (st.finding? verdict s, memo'))
    (hrest : st.survey answers rule memo' rest = (st.findings verdict rest, memo'')) :
    st.survey answers rule memo (s :: rest) = (st.findings verdict (s :: rest), memo'') := by
  simp only [survey, hs, hrest, findings, List.flatMap_cons]

/-- Calls that are remembered come to what is remembered of them. -/
theorem survey_known {verdict : Surroundings → Node → Verdict} {calls : List Node}
    (hknown : ∀ x ∈ calls, ∃ res, memo.lookup x.span = some res ∧ verdict here x = .ok res) :
    st.survey answers st.remembering memo (calls.map (.call · here)) =
      (st.findings verdict (calls.map (.call · here)), memo) := by
  induction calls with
  | nil => rfl
  | cons x calls ih =>
    obtain ⟨res, hres, hv⟩ := hknown x (by simp)
    have houtcome : st.remembering.outcome answers here memo x = (verdict here x, memo) := by
      rw [hv]
      exact resolveCall_known hres st.limit
    have hfind : st.findAt answers st.remembering memo (.call x here) =
        (st.finding? verdict (.call x here), memo) := by
      rcases findAt_call houtcome with h | ⟨h, _⟩ <;> exact h
    exact survey_cons hfind (ih fun y hy => hknown y (by simp [hy]))

/-- What is learnt is right, as long as no two calls cover the same octets. -/
theorem Right.learns {calls : List Node} {memo' : CallMemo} (hspans : (calls.map Node.span).Nodup)
    (hright : st.Right answers here calls memo) (hlearns : st.Learns answers here calls memo memo') :
    st.Right answers here calls memo' := by
  intro x hx res hres
  rcases hlearns _ _ hres with hold | ⟨y, hy, hspan, hv⟩
  · exact hright x hx res hold
  · rw [← List.inj_on_of_nodup_map hspans hy hx hspan]
    exact hv

theorem Learns.trans {calls : List Node} {memo' memo'' : CallMemo}
    (h : st.Learns answers here calls memo memo') (h' : st.Learns answers here calls memo' memo'') :
    st.Learns answers here calls memo memo'' := by
  intro key res hres
  rcases h' key res hres with hmid | hnew
  · exact h key res hmid
  · exact .inr hnew

theorem Learns.lookup_eq_none {calls : List Node} {memo' : CallMemo} {key : Nat × Nat}
    (h : st.Learns answers here calls memo memo') (hkey : key ∉ calls.map Node.span)
    (hnone : memo.lookup key = none) : memo'.lookup key = none := by
  cases hres : memo'.lookup key with
  | none => rfl
  | some res =>
    rcases h key res hres with hold | ⟨x, hx, rfl, _⟩
    · cases hnone.symm.trans hold
    · exact absurd (List.mem_map_of_mem hx) hkey

/-- Calls of a chain that keeps the limit come to what they come to without one. -/
theorem survey_fits {whole calls : List Node} (hspans : (whole.map Node.span).Nodup)
    (hfits : ∀ x ∈ whole, x.chain ⊆ whole ∧ x.chain.length ≤ st.limit + 1)
    (hright : st.Right answers here whole memo) (hcalls : calls ⊆ whole) :
    ∃ memo', st.survey answers st.remembering memo (calls.map (.call · here)) =
        (st.findings (st.unlimited answers) (calls.map (.call · here)), memo') ∧
      st.Learns answers here whole memo memo' := by
  induction calls generalizing memo with
  | nil => exact ⟨memo, rfl, .refl _ _⟩
  | cons x calls ih =>
    obtain ⟨hx, hcalls⟩ := List.cons_subset.mp hcalls
    obtain ⟨hsub, hlen⟩ := hfits x hx
    obtain ⟨learnt, houtcome, hlearnt⟩ : ∃ learnt, st.remembering.outcome answers here memo x =
        (st.unlimited answers here x, learnt) ∧ st.Learns answers here x.chain memo learnt :=
      resolveCall_fits hlen fun y hy => hright y (hsub hy)
    obtain ⟨memo₁, hfind, hlearns⟩ : ∃ memo₁, st.findAt answers st.remembering memo (.call x here) =
        (st.finding? (st.unlimited answers) (.call x here), memo₁) ∧
        st.Learns answers here whole memo memo₁ := by
      rcases findAt_call houtcome with h | ⟨h, _⟩
      · exact ⟨learnt, h, hlearnt.mono hsub⟩
      · exact ⟨memo, h, .refl _ _⟩
    obtain ⟨memo₂, hrest, hmore⟩ := ih (hright.learns hspans hlearns) hcalls
    exact ⟨memo₂, survey_cons hfind hrest, hlearns.trans hmore⟩

theorem lookup_blockedEntries {block before after : List Node} (hspans : (block.map Node.span).Nodup)
    (h : block = before ++ x :: after) :
    (blockedEntries block ++ memo).lookup x.span = some (blocked after.length) := by
  subst h
  induction before with
  | nil => simp [blockedEntries]
  | cons b before ih =>
    rw [List.cons_append, List.map_cons, List.nodup_cons] at hspans
    have hne : (x.span == b.span) = false := by
      refine beq_false_of_ne fun heq => hspans.1 ?_
      rw [← heq]
      exact List.mem_map_of_mem (by simp)
    rw [List.cons_append, blockedEntries, List.cons_append, List.lookup_cons, hne]
    exact ih hspans.2

theorem lookup_blockedEntries_of_not_mem {block : List Node} {key : Nat × Nat}
    (h : key ∉ block.map Node.span) : (blockedEntries block ++ memo).lookup key = memo.lookup key := by
  induction block with
  | nil => rfl
  | cons b block ih =>
    rw [List.map_cons, List.mem_cons, not_or] at h
    rw [blockedEntries, List.cons_append, List.lookup_cons, beq_false_of_ne h.1]
    exact ih h.2

/-- The outermost calls of a chain that exceeds the limit are cut off. -/
theorem survey_outer {block : List Node} {inside : Node} (hchain : n.chain = block ++ inside.chain)
    (hlen : block.length = st.limit + 1) (hspans : (block.map Node.span).Nodup)
    (hfree : ∀ x ∈ block, memo.lookup x.span = none) :
    st.survey answers st.remembering memo (block.map (.call · here)) =
      (st.findings (st.judged answers n.chain.length) (block.map (.call · here)),
        blockedEntries block ++ memo) := by
  have hinside := inside.length_chain_pos
  have hwhole : n.chain.length = st.limit + 1 + inside.chain.length := by
    rw [hchain, List.length_append, hlen]
  have hjudged : ∀ before x after, block = before ++ x :: after →
      st.judged answers n.chain.length here x = .ok (blocked after.length) := by
    rintro before x after rfl
    rw [List.append_assoc, List.cons_append] at hchain
    have hx := congrArg List.length (Node.chain_from hchain)
    simp only [List.length_append, List.length_cons] at hx hlen
    exact judged_outer hwhole hinside (by omega) (by omega)
  obtain ⟨x, block, rfl⟩ := List.exists_cons_of_length_eq_add_one hlen
  obtain ⟨m, hm⟩ := Node.receiver_of_chain hchain
  obtain rfl : n = x := by
    rw [Node.chain_more hm, List.cons_append, List.cons.injEq] at hchain
    exact hchain.1
  have houtcome : st.remembering.outcome answers here memo n =
      (st.judged answers n.chain.length here n, blockedEntries (n :: block) ++ memo) := by
    rw [hjudged [] n block rfl, show block.length = st.limit by simpa using hlen]
    exact resolveCall_blocked hchain hlen hfree
  rcases findAt_call houtcome with hfind | ⟨_, hname⟩
  · refine survey_cons hfind (survey_known fun y hy => ?_)
    obtain ⟨before, after, hsplit⟩ := List.append_of_mem hy
    have hsplit : n :: block = (n :: before) ++ y :: after := by rw [hsplit, List.cons_append]
    exact ⟨_, lookup_blockedEntries hspans hsplit, hjudged _ _ _ hsplit⟩
  · obtain ⟨⟨name, hsome⟩, _⟩ := Node.receiver_eq_some hm
    cases hname.symm.trans hsome

/-- The calls of a chain that keeps the limit, if nothing is remembered of them. -/
theorem survey_short (hfits : n.chain.length ≤ st.limit + 1) (hspans : (n.chain.map Node.span).Nodup)
    (hfree : ∀ x ∈ n.chain, memo.lookup x.span = none) :
    ∃ memo', st.survey answers st.remembering memo (n.chain.map (.call · here)) =
        (st.findings (st.judged answers n.chain.length) (n.chain.map (.call · here)), memo') ∧
      st.Learns answers here n.chain memo memo' := by
  have hbelow : ∀ x ∈ n.chain, x.chain.length ≤ n.chain.length := fun x hx =>
    (Node.chain_suffix hx).length_le
  have hright : st.Right answers here n.chain memo := by
    intro x hx res hres
    cases (hfree x hx).symm.trans hres
  obtain ⟨memo', hsurvey, hlearns⟩ := survey_fits hspans
    (fun x hx => ⟨(Node.chain_suffix hx).subset, Nat.le_trans (hbelow x hx) hfits⟩) hright
    (List.Subset.refl _)
  refine ⟨memo', ?_, hlearns⟩
  rw [hsurvey, findings_calls_congr fun x hx => (judged_fits hfits (hbelow x hx)).symm]

/-- The calls of a chain of which nothing is remembered come to what they are judged to come to. -/
theorem survey_chain (hspans : (n.chain.map Node.span).Nodup)
    (hfree : ∀ x ∈ n.chain, memo.lookup x.span = none) :
    ∃ memo', st.survey answers st.remembering memo (n.chain.map (.call · here)) =
        (st.findings (st.judged answers n.chain.length) (n.chain.map (.call · here)), memo') ∧
      ∀ key, key ∉ n.chain.map Node.span → memo.lookup key = none → memo'.lookup key = none := by
  induction hk : n.chain.length using Nat.strongRecOn generalizing n memo with
  | ind k ih =>
    subst hk
    by_cases hfits : n.chain.length ≤ st.limit + 1
    · obtain ⟨memo', hsurvey, hlearns⟩ := survey_short hfits hspans hfree
      exact ⟨memo', hsurvey, fun _ hkey hnone => hlearns.lookup_eq_none hkey hnone⟩
    · -- The first group is cut off, and nothing is remembered of the calls behind it.
      obtain ⟨block, inside, hchain, hlen⟩ := Node.chain_split (Nat.lt_of_not_le hfits)
      have hinside := inside.length_chain_pos
      have hwhole : n.chain.length = st.limit + 1 + inside.chain.length := by
        rw [hchain, List.length_append, hlen]
      rw [hchain, List.map_append, List.nodup_append] at hspans
      obtain ⟨hblock, hrest, hdisjoint⟩ := hspans
      have houter : st.survey answers st.remembering memo (block.map (.call · here)) =
          (st.findings (st.judged answers n.chain.length) (block.map (.call · here)),
            blockedEntries block ++ memo) :=
        survey_outer hchain hlen hblock fun x hx => hfree x (by simp [hchain, hx])
      have hfresh : ∀ x ∈ inside.chain, (blockedEntries block ++ memo).lookup x.span = none := by
        intro x hx
        have hnot : x.span ∉ block.map Node.span := fun hmem =>
          hdisjoint _ hmem _ (List.mem_map_of_mem hx) rfl
        rw [lookup_blockedEntries_of_not_mem hnot]
        exact hfree x (by simp [hchain, hx])
      obtain ⟨memo', hinner, hkeys⟩ := ih _ (by omega) hrest hfresh rfl
      refine ⟨memo', ?_, ?_⟩
      · have hsame : st.findings (st.judged answers n.chain.length)
              (inside.chain.map (.call · here)) =
            st.findings (st.judged answers inside.chain.length) (inside.chain.map (.call · here)) :=
          findings_calls_congr fun x hx =>
            judged_inner hwhole hinside (Node.chain_suffix hx).length_le
        have hsites : n.chain.map (Site.call · here) =
            block.map (.call · here) ++ inside.chain.map (.call · here) := by
          rw [hchain, List.map_append]
        rw [hsites, survey_append, houter, hinner, findings_append, hsame]
      · intro key hkey hnone
        rw [hchain, List.map_append, List.mem_append, not_or] at hkey
        refine hkeys key hkey.2 ?_
        rw [lookup_blockedEntries_of_not_mem hkey.1]
        exact hnone

theorem linksAt_blocked {f : Finding} {left : Nat} (h : f.verdict = .ok (blocked left)) :
    st.linksAt f = [] := by
  unfold linksAt
  rw [h]
  cases left <;> rfl

/-- What comes of a reference and of those that follow it in a chain. -/
def chainFindings (st : Setting) (answers : Answers) (s : Site) : List Finding :=
  st.findings (st.judged answers s.chained.length) s.chained

theorem survey_head (st : Setting) (answers : Answers) {s : Site} (hspans : (s.calls.map Node.span).Nodup)
    (hfree : ∀ x ∈ s.calls, memo.lookup x.span = none) :
    ∃ memo', st.survey answers st.remembering memo s.chained = (st.chainFindings answers s, memo') ∧
      ∀ key, key ∉ s.calls.map Node.span → memo.lookup key = none → memo'.lookup key = none := by
  cases s with
  | call n here =>
    have hlen : (Site.call n here).chained.length = n.chain.length := List.length_map _
    rw [chainFindings, hlen]
    exact survey_chain hspans hfree
  | imported d => exact ⟨memo, rfl, fun _ _ h => h⟩
  | type n here => exact ⟨memo, rfl, fun _ _ h => h⟩

/-- Chains come one after another, and what is remembered of one is of no use to the next. -/
theorem survey_heads {heads : List Site} (hspans : ((heads.flatMap Site.calls).map Node.span).Nodup)
    (hfree : ∀ x ∈ heads.flatMap Site.calls, memo.lookup x.span = none) :
    (st.survey answers st.remembering memo (heads.flatMap Site.chained)).1 =
      heads.flatMap (st.chainFindings answers) := by
  induction heads generalizing memo with
  | nil => rfl
  | cons s heads ih =>
    simp only [List.flatMap_cons, List.map_append, List.nodup_append, List.mem_append]
      at hspans hfree ⊢
    obtain ⟨hfirst, hrest, hdisjoint⟩ := hspans
    obtain ⟨memo', hsurvey, hkeys⟩ := survey_head st answers hfirst fun x hx => hfree x (.inl hx)
    rw [survey_append, hsurvey]
    refine congrArg (_ ++ ·) (ih hrest fun x hx => ?_)
    refine hkeys _ (fun hmem => ?_) (hfree x (.inr hx))
    exact hdisjoint _ hmem _ (List.mem_map_of_mem hx) rfl

/-- What a pass finds, chain by chain. -/
theorem found_chains {heads more : List Site} {cancelled : Nat → Bool}
    (hspans : (st.source.calls.map Node.span).Nodup)
    (hheads : st.passSites cancelled = heads.flatMap Site.chained)
    (hcalls : (heads ++ more).flatMap Site.calls = st.source.calls) :
    st.found answers st.remembering cancelled = heads.flatMap (st.chainFindings answers) := by
  rw [← hcalls, List.flatMap_append, List.map_append] at hspans
  rw [found, hheads]
  exact survey_heads hspans.of_append_left fun _ _ => rfl

/-- The links of a pass, chain by chain. -/
theorem links_chains (st : Setting) {heads more : List Site} {cancelled : Nat → Bool}
    (hspans : (st.source.calls.map Node.span).Nodup)
    (hheads : st.passSites cancelled = heads.flatMap Site.chained)
    (hcalls : (heads ++ more).flatMap Site.calls = st.source.calls)
    (corpus : Corpus) :
    ((st.resolve cancelled).run corpus).1.1.links =
      heads.flatMap fun s => (st.chainFindings corpus.answers s).flatMap st.linksAt := by
  obtain ⟨_, _, hrun⟩ := st.resolve_run cancelled corpus
  rw [hrun, found_chains hspans hheads hcalls]
  exact (record_links _ _).trans ((List.nil_append _).trans List.flatMap_assoc)

/-- A pass without a memo finds what there is without a limit, if no chain exceeds the limit. -/
theorem survey_forgetful {sites : List Site}
    (hfits : ∀ n here, .call n here ∈ sites → n.chain.length ≤ st.limit + 1) (memo : CallMemo) :
    st.survey answers st.forgetful memo sites = (st.findings (st.unlimited answers) sites, memo) := by
  induction sites with
  | nil => rfl
  | cons s sites ih =>
    refine survey_cons ?_ (ih fun n here h => hfits n here (by simp [h]))
    cases s with
    | call n here =>
      have houtcome : st.forgetful.outcome answers here memo n =
          (st.unlimited answers here n, memo) := resolveAfresh_fits (hfits n here (by simp)) memo
      rcases findAt_call houtcome with h | ⟨h, _⟩ <;> exact h
    | _ => rfl

theorem chainFindings_fits {heads : List Site}
    (hfits : ∀ n here, .call n here ∈ heads.flatMap Site.chained → n.chain.length ≤ st.limit + 1) :
    heads.flatMap (st.chainFindings answers) =
      st.findings (st.unlimited answers) (heads.flatMap Site.chained) := by
  rw [findings, List.flatMap_assoc]
  refine List.flatMap_congr fun s hs => findings_congr fun x here hx => ?_
  obtain ⟨n, rfl, hmem⟩ := Site.mem_chained.mp hx
  have hself : .call n here ∈ heads.flatMap Site.chained :=
    List.mem_flatMap.mpr ⟨_, hs, Site.mem_chained.mpr ⟨n, rfl, n.mem_chain_self⟩⟩
  have hlen : (Site.call n here).chained.length = n.chain.length := List.length_map _
  rw [hlen]
  exact judged_fits (hfits n here hself) (Node.chain_suffix hmem).length_le

/-- What is remembered of calls changes nothing, as long as no chain of them exceeds the limit.

A pass is the same as one that resolves every call from the start, each in the surroundings where it
is visited, but for the rule for calls. If no two calls cover the same octets, every receiver is its
call's first child and the limit holds for all receivers, then both end with the same table and the
same tally. Readers may crash, and the pass may be cancelled. -/
theorem memo_is_transparent (st : Setting) (hspans : (st.source.calls.map Node.span).Nodup)
    (hfirst : ∀ c ∈ st.source.calls, c.ReceiverFirst)
    (hdepth : ∀ c ∈ st.source.calls, c.chain.length ≤ st.config.maxChainDepth.toNat + 1)
    (cancelled : Nat → Bool) (corpus : Corpus) :
    st.resolve cancelled = st.resolveBy (st.performBy st.remembering) cancelled ∧
    ((st.resolve cancelled).run corpus).1.1.links =
      ((st.resolveBy (st.performBy st.forgetful) cancelled).run corpus).1.1.links ∧
    ((st.resolve cancelled).run corpus).1.1.tally =
      ((st.resolveBy (st.performBy st.forgetful) cancelled).run corpus).1.1.tally ∧
    ((st.resolve cancelled).run corpus).1.2 =
      ((st.resolveBy (st.performBy st.forgetful) cancelled).run corpus).1.2 := by
  refine ⟨resolve_eq cancelled, ?_⟩
  obtain ⟨heads, more, hheads, hcalls⟩ := passSites_chained hfirst cancelled
  have hfits : ∀ n here, .call n here ∈ heads.flatMap Site.chained → n.chain.length ≤ st.limit + 1 := by
    intro n here hn
    apply hdepth
    rw [← hcalls, List.flatMap_append]
    exact List.mem_append_left _ (Site.call_mem hn)
  have hfound : st.found corpus.answers st.remembering cancelled =
      st.found corpus.answers st.forgetful cancelled := by
    rw [found_chains hspans hheads hcalls, chainFindings_fits hfits, found, hheads,
      survey_forgetful hfits]
  obtain ⟨_, _, hrun⟩ := st.resolve_run cancelled corpus
  obtain ⟨_, _, hafresh⟩ := st.resolveBy_answered corpus.answers st.forgetful cancelled
  rw [hrun, Inquiry.run_answered, hafresh, hfound]
  exact ⟨rfl, rfl, rfl⟩

/-- A call on the result of another, which is as deep as the limit lets it be, and a reader that
crashes. -/
theorem memo_is_transparent_for_two :
    (nexts 1 1).source.calls = [.nexts "" 1, .nexts "object" 0] ∧
    (((nexts 1 1).resolve fun _ => false).run ⟨[Archive.pair.faulty]⟩).1.1.links =
      (((nexts 1 1).resolveBy ((nexts 1 1).performBy (nexts 1 1).forgetful) fun _ => false).run
        ⟨[Archive.pair.faulty]⟩).1.1.links ∧
    (((nexts 1 1).resolve fun _ => false).run ⟨[Archive.pair.faulty]⟩).1.1.tally =
      (((nexts 1 1).resolveBy ((nexts 1 1).performBy (nexts 1 1).forgetful) fun _ => false).run
        ⟨[Archive.pair.faulty]⟩).1.1.tally := by
  obtain ⟨_, hlinks, htally, _⟩ := memo_is_transparent (nexts 1 1) (by decide +kernel)
    (by decide +kernel) (by decide +kernel) (fun _ => false) ⟨[Archive.pair.faulty]⟩
  exact ⟨rfl, hlinks, htally⟩

end SourceLinks.Setting
