import SourceLinks.Proofs.Agreement
import SourceLinks.Proofs.Crashes
import SourceLinks.Proofs.Remembering

namespace SourceLinks

/-- What comes to nothing may be left out. -/
theorem flatMap_filter_eq {α β : Type} {p : α → Bool} {f : α → List β} {l : List α}
    (h : ∀ x ∈ l, p x = false → f x = []) : (l.filter p).flatMap f = l.flatMap f := by
  induction l with
  | nil => rfl
  | cons x l ih =>
    obtain ⟨hx, hl⟩ := List.forall_mem_cons.mp h
    cases hp : p x with
    | true => simp [hp, ih hl]
    | false => simp [hp, ih hl, hx hp]

namespace Archive

/-- An archive whose reader crashes if its id is among these. -/
def spoiled (faulty : String → Bool) (a : Archive) : Archive :=
  if faulty a.id then a.faulty else a

theorem spoiled_id (faulty : String → Bool) (a : Archive) : (a.spoiled faulty).id = a.id := by
  unfold spoiled
  split <;> rfl

theorem spoiled_entries (faulty : String → Bool) (a : Archive) :
    (a.spoiled faulty).entries = a.entries := by
  unfold spoiled
  split <;> rfl

/-- Only a class that the archive holds and has not read before makes its reader crash. -/
theorem faulty_structureOf (a : Archive) (name : String) :
    (a.faulty.structureOf name).1 =
      if a.hasClass name && (a.structures.get? name).isNone then .error ⟨⟩
      else (a.structureOf name).1 := by
  have hkept : a.faulty.structures = a.structures := rfl
  cases hget : a.structures.get? name with
  | some kept => simp [structureOf, hkept, hget]
  | none =>
    have hheld : a.faulty.classBytes? name = a.classBytes? name := rfl
    cases hbytes : a.classBytes? name with
    | none => simp [structureOf, readClass, hasClass, hkept, hget, hheld, hbytes]
    | some bytes =>
      have hreader : a.faulty.reader = .crashing := rfl
      simp [structureOf, readClass, hasClass, hkept, hget, hheld, hbytes, hreader]

end Archive

namespace Corpus

/-- The same archives in the same order, where those of these ids have readers that crash on every
class. -/
def withFaults (c : Corpus) (faulty : String → Bool) : Corpus :=
  ⟨c.archives.map (Archive.spoiled faulty)⟩

/-- To ask this archive for this class makes its reader crash, if it is one of the faulty ones. What an
archive has read before it does not read again. -/
def failing (c : Corpus) (faulty : String → Bool) (k : String × String) : Bool :=
  faulty k.1 && (c.get? k.1).any fun a => a.hasClass k.2 && (a.structures.get? k.2).isNone

theorem get_withFaults (c : Corpus) (faulty : String → Bool) (id : String) :
    (c.withFaults faulty).get? id = (c.get? id).map (Archive.spoiled faulty) :=
  c.get_mapArchives (Archive.spoiled_id faulty) id

theorem answers_withFaults (c : Corpus) (faulty : String → Bool) (archive name : String) :
    (c.withFaults faulty).answers archive name =
      if c.failing faulty (archive, name) then .error ⟨⟩ else c.answers archive name := by
  rw [answers_eq, answers_eq, get_withFaults, failing]
  cases hget : c.get? archive with
  | none => simp
  | some a =>
    have hid := get_id hget
    subst hid
    simp only [Option.map_some, Option.any_some, Archive.spoiled]
    cases hf : faulty a.id with
    | false => simp
    | true => simpa using a.faulty_structureOf name

theorem lookup_withFaults (c : Corpus) (faulty : String → Bool) (name : String)
    (prefer : Option String) : (c.withFaults faulty).lookup? name prefer = c.lookup? name prefer :=
  c.lookup_mapArchives (Archive.spoiled_id faulty) (Archive.spoiled_entries faulty) name prefer

theorem chainBound_withFaults (c : Corpus) (faulty : String → Bool) :
    (c.withFaults faulty).chainBound = c.chainBound :=
  c.chainBound_mapArchives (Archive.spoiled_entries faulty)

end Corpus

namespace Setting
variable {st : Setting} {here : Surroundings}

/-- The same pass over archives some of which have readers that crash. -/
def withFaults (st : Setting) (faulty : String → Bool) : Setting :=
  { st with corpus := st.corpus.withFaults faulty }

theorem agrees_withFaults (st : Setting) (faulty : String → Bool) : st.Agrees (st.withFaults faulty) :=
  ⟨⟨rfl, fun _ => Corpus.lookup_withFaults .., Corpus.chainBound_withFaults ..⟩, rfl⟩

/-- To resolve the call, a class is read from one of the faulty archives. -/
def readsFaulty (st : Setting) (faulty : String → Bool) : Site → Bool
  | .call n here =>
    ((st.resolveAfresh here st.limit [] n).asked st.corpus.answers).any (st.corpus.failing faulty)
  | _ => false

/-- A call whose chain keeps the limit comes to the same in spite of the faults, or to a crash if a
class that it needs is affected. -/
theorem unlimited_withFaults (st : Setting) (here : Surroundings) (faulty : String → Bool) {n : Node}
    (hfits : n.chain.length ≤ st.limit + 1) :
    if st.readsFaulty faulty (.call n here) then
      ∃ crash, st.unlimited (st.corpus.withFaults faulty).answers here n = .error crash
    else st.unlimited (st.corpus.withFaults faulty).answers here n =
      st.unlimited st.corpus.answers here n := by
  have hafresh : ∀ answers, ((st.resolveAfresh here st.limit [] n).answered answers).1 =
      st.unlimited answers here n := fun answers => congrArg Prod.fst (resolveAfresh_fits hfits [])
  rw [← hafresh, ← hafresh]
  split
  · rename_i hreads
    obtain ⟨k, hk, hfail⟩ := List.any_eq_true.mp hreads
    have hsame : ∀ archive name,
        (st.corpus.withFaults faulty).answers archive name = st.corpus.answers archive name ∨
          ∃ crash, (st.corpus.withFaults faulty).answers archive name = .error crash := by
      intro archive name
      rw [Corpus.answers_withFaults]
      split
      · exact .inr ⟨_, rfl⟩
      · exact .inl rfl
    refine (resolveAfresh_fragile here st.limit [] n).spoilt hsame ⟨k, hk, ⟨⟩, ?_⟩
    rw [Corpus.answers_withFaults, if_pos hfail]
  · rename_i hreads
    have hsame : ∀ k ∈ (st.resolveAfresh here st.limit [] n).asked st.corpus.answers,
        (st.corpus.withFaults faulty).answers k.1 k.2 = st.corpus.answers k.1 k.2 := by
      intro k hk
      rw [Corpus.answers_withFaults, if_neg]
      intro hfail
      exact hreads (List.any_eq_true.mpr ⟨k, hk, hfail⟩)
    rw [Inquiry.answered_congr hsame]

theorem judged_withFaults (faulty : String → Bool) (answers : Answers) (whole : Nat)
    (here : Surroundings) (n : Node) :
    (st.withFaults faulty).judged answers whole here n = st.judged answers whole here n := by
  rw [judged, judged, (st.agrees_withFaults faulty).unlimited]
  rfl

/-- A reference loses its links if a class that it needs is affected, and keeps them otherwise. -/
theorem linksAt_withFaults (faulty : String → Bool) (whole : Nat) (s : Site) :
    (st.finding? (st.judged (st.corpus.withFaults faulty).answers whole) s).toList.flatMap st.linksAt =
      ((st.finding? (st.judged st.corpus.answers whole) s).toList.filter fun f =>
        !st.readsFaulty faulty f.site).flatMap st.linksAt := by
  cases s with
  | imported d => rfl
  | type n here => cases hname : st.source.typeName? n <;> simp [finding?, hname, readsFaulty]
  | call n here =>
    cases hname : n.child? "name" with
    | none => simp [finding?, hname]
    | some name =>
      simp only [finding?, hname, Option.map_some, Option.toList_some, List.flatMap_singleton]
      by_cases hn : n.chain.length ≤ (whole - 1) % (st.limit + 1) + 1
      · have hmod : (whole - 1) % (st.limit + 1) < st.limit + 1 := Nat.mod_lt _ (by omega)
        have hfits : n.chain.length ≤ st.limit + 1 := by omega
        have hfaults := st.unlimited_withFaults here faulty hfits
        rw [judged, judged, if_pos hn, if_pos hn]
        cases hreads : st.readsFaulty faulty (.call n here) with
        | false =>
          simp only [hreads, Bool.false_eq_true, ↓reduceIte] at hfaults
          simp [hreads, hfaults]
        | true =>
          simp only [hreads, ↓reduceIte] at hfaults
          obtain ⟨crash, hcrash⟩ := hfaults
          simp [hreads, hcrash, linksAt]
      · rw [judged, judged, if_neg hn, if_neg hn, linksAt_blocked rfl]
        cases hreads : st.readsFaulty faulty (.call n here) with
        | true => simp [hreads]
        | false => simpa [hreads] using linksAt_blocked rfl

theorem finding_call {verdict : Surroundings → Node → Verdict} {s : Site} {f : Finding} {n : Node}
    (h : st.finding? verdict s = some f) (hsite : f.site = .call n here) :
    f.kind = "method" ∧ f.verdict = verdict here n := by
  cases s with
  | imported d =>
    cases h
    cases hsite
  | type m there =>
    obtain ⟨_, _, rfl⟩ := Option.map_eq_some_iff.mp h
    cases hsite
  | call m there =>
    obtain ⟨_, _, rfl⟩ := Option.map_eq_some_iff.mp h
    cases hsite
    exact ⟨rfl, rfl⟩

theorem linksAt_kind {f : Finding} {l : Link} (h : l ∈ st.linksAt f) : l.kind = f.kind := by
  unfold linksAt at h
  split at h
  · obtain ⟨_, _, hlink⟩ := mem_linksFor.mp h
    obtain ⟨_, _, _, _, rfl⟩ := linkOf_eq hlink
    rfl
  · cases h

/-- A call that has a link in the table has come to what comes of its resolution. -/
theorem verdict_of_chain {answers : Answers} {s : Site} {f : Finding} {n : Node}
    (hf : f ∈ st.chainFindings answers s) (hsite : f.site = .call n here) (hlinks : st.linksAt f ≠ []) :
    f.verdict = ((st.resolveAfresh here st.limit [] n).answered answers).1 ∧ f.kind = "method" := by
  obtain ⟨x, _, hx⟩ := List.mem_flatMap.mp hf
  obtain ⟨hkind, hverdict⟩ := finding_call (Option.mem_toList.mp hx) hsite
  refine ⟨?_, hkind⟩
  by_cases hn : n.chain.length ≤ (s.chained.length - 1) % (st.limit + 1) + 1
  · have hmod : (s.chained.length - 1) % (st.limit + 1) < st.limit + 1 := Nat.mod_lt _ (by omega)
    rw [hverdict, judged, if_pos hn, resolveAfresh_fits (by omega)]
  · rw [judged, if_neg hn] at hverdict
    exact absurd (linksAt_blocked hverdict) hlinks

/-- The links of a chain in spite of the faults. -/
theorem chain_links_withFaults (faulty : String → Bool) (s : Site) :
    ((st.withFaults faulty).chainFindings (st.corpus.withFaults faulty).answers s).flatMap st.linksAt =
      ((st.chainFindings st.corpus.answers s).filter fun f =>
        !st.readsFaulty faulty f.site).flatMap st.linksAt := by
  have hjudged : (st.withFaults faulty).judged (st.corpus.withFaults faulty).answers s.chained.length =
      st.judged (st.corpus.withFaults faulty).answers s.chained.length := by
    funext here n
    exact judged_withFaults ..
  rw [chainFindings, (st.agrees_withFaults faulty).findings, hjudged, chainFindings, findings, findings,
    List.filter_flatMap, List.flatMap_assoc, List.flatMap_assoc]
  exact List.flatMap_congr fun x _ => linksAt_withFaults faulty _ x

/-- Faulty readers cost those links for which they are needed, and no other.

Let no two calls cover the same octets and every receiver be its call's first child, and let some
archives get readers that crash on every class. The pass still ends, cancelled or not as before. Its
table is what the first pass found, in the same order, without the calls for whose resolution a class
is read from one of these archives; what a call with a link has come to is what comes of its
resolution. Links of other kinds are the same. -/
theorem faults_are_isolated (st : Setting) (hspans : (st.source.calls.map Node.span).Nodup)
    (hfirst : ∀ c ∈ st.source.calls, c.ReceiverFirst) (faulty : String → Bool)
    (cancelled : Nat → Bool) :
    (((st.withFaults faulty).resolve cancelled).run (st.corpus.withFaults faulty)).1.2 =
      ((st.resolve cancelled).run st.corpus).1.2 ∧
    ((st.resolve cancelled).run st.corpus).1.1.links =
      (st.found st.corpus.answers st.remembering cancelled).flatMap st.linksAt ∧
    (((st.withFaults faulty).resolve cancelled).run (st.corpus.withFaults faulty)).1.1.links =
      ((st.found st.corpus.answers st.remembering cancelled).filter fun f =>
        !st.readsFaulty faulty f.site).flatMap st.linksAt ∧
    (∀ f ∈ st.found st.corpus.answers st.remembering cancelled, ∀ n here, f.site = .call n here →
      st.linksAt f ≠ [] →
        f.verdict = ((st.resolveAfresh here st.limit [] n).answered st.corpus.answers).1 ∧
        f.kind = "method") ∧
    (((st.withFaults faulty).resolve cancelled).run (st.corpus.withFaults faulty)).1.1.links.filter
        (·.kind != "method") =
      ((st.resolve cancelled).run st.corpus).1.1.links.filter (·.kind != "method") := by
  obtain ⟨heads, more, hheads, hcalls⟩ := passSites_chained hfirst cancelled
  have hfound : st.found st.corpus.answers st.remembering cancelled =
      heads.flatMap (st.chainFindings st.corpus.answers) := found_chains hspans hheads hcalls
  have hlinks : ((st.resolve cancelled).run st.corpus).1.1.links =
      (st.found st.corpus.answers st.remembering cancelled).flatMap st.linksAt := by
    rw [links_chains st hspans hheads hcalls, hfound, List.flatMap_assoc]
  have hagrees := st.agrees_withFaults faulty
  have hlinks' : (((st.withFaults faulty).resolve cancelled).run
      (st.corpus.withFaults faulty)).1.1.links =
      ((st.found st.corpus.answers st.remembering cancelled).filter fun f =>
        !st.readsFaulty faulty f.site).flatMap st.linksAt := by
    have hlinksAt : (st.withFaults faulty).linksAt = st.linksAt := funext hagrees.linksAt
    rw [links_chains (st.withFaults faulty) hspans ((hagrees.passSites rfl _).trans hheads) hcalls,
      hlinksAt, hfound, List.filter_flatMap, List.flatMap_assoc]
    exact List.flatMap_congr fun s _ => chain_links_withFaults faulty s
  have hverdict : ∀ f ∈ st.found st.corpus.answers st.remembering cancelled, ∀ n here,
      f.site = .call n here → st.linksAt f ≠ [] →
        f.verdict = ((st.resolveAfresh here st.limit [] n).answered st.corpus.answers).1 ∧
        f.kind = "method" := by
    intro f hf n here hsite hne
    rw [hfound] at hf
    obtain ⟨s, _, hf⟩ := List.mem_flatMap.mp hf
    exact verdict_of_chain hf hsite hne
  refine ⟨?_, hlinks, hlinks', hverdict, ?_⟩
  · obtain ⟨_, _, hrun⟩ := st.resolve_run cancelled st.corpus
    obtain ⟨_, _, hrun'⟩ := (st.withFaults faulty).resolve_run cancelled (st.corpus.withFaults faulty)
    rw [hrun, hrun']
    rfl
  · rw [hlinks, hlinks', List.filter_flatMap, List.filter_flatMap]
    refine flatMap_filter_eq fun f hf hreads => List.filter_eq_nil_iff.mpr fun l hl => ?_
    cases hsite : f.site with
    | call n here =>
      have hmethod := (hverdict f hf n here hsite (List.ne_nil_of_mem hl)).2
      simp [linksAt_kind hl, hmethod]
    | _ => simp [hsite, readsFaulty] at hreads

/-- A call of a method on the result of another, where the two have classes in archives of their own. -/
def apart : Setting :=
  { nexts 1 1 with
    corpus := ⟨[
      { id := "demo.jar"
        entries := ⟨[("demo/Main.class",
          ClassFile.plain "demo/Main" "java/lang/Object" [⟨"next", "()Ldemo/Base;"⟩])]⟩ },
      { id := "base.jar"
        entries := ⟨[("demo/Base.class",
          ClassFile.plain "demo/Base" "java/lang/Object" [⟨"next", "()Ldemo/Base;"⟩])]⟩ }]⟩ }

/-- If the archive of the outer call's class is faulty, the inner call keeps its link. If that of the
inner call's class is, both lose their links, as the outer call needs what the inner one returns. -/
theorem faults_are_isolated_apart :
    ((apart.resolve fun _ => false).run apart.corpus).1.1.links =
      [⟨12, 16, 1, 13, "base.jar", "demo/Base", some "next", "method"⟩,
        ⟨5, 9, 1, 6, "demo.jar", "demo/Main", some "next", "method"⟩] ∧
    (((apart.withFaults (· == "base.jar")).resolve fun _ => false).run
        (apart.corpus.withFaults (· == "base.jar"))).1.1.links =
      [⟨5, 9, 1, 6, "demo.jar", "demo/Main", some "next", "method"⟩] ∧
    (((apart.withFaults (· == "demo.jar")).resolve fun _ => false).run
        (apart.corpus.withFaults (· == "demo.jar"))).1.1.links = [] := by
  have hisolated := fun faulty =>
    faults_are_isolated apart (by decide +kernel) (by decide +kernel) faulty fun _ => false
  obtain ⟨_, hlinks, hbase, _⟩ := hisolated (· == "base.jar")
  obtain ⟨_, _, hdemo, _⟩ := hisolated (· == "demo.jar")
  refine ⟨hlinks.trans ?_, hbase.trans ?_, hdemo.trans ?_⟩ <;> decide +kernel

end Setting
end SourceLinks
