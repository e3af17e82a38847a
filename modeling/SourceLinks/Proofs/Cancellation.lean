import SourceLinks.Proofs.Agenda
import SourceLinks.Proofs.LinkRule

namespace SourceLinks
variable {α β : Type}

/-- What comes second starts from the corpus that what comes first leaves behind. -/
theorem Inquiry.run_bind (q : Inquiry α) (f : α → Inquiry β) (c : Corpus) :
    ((q >>= f).run c).1 = ((f (q.run c).1).run (q.run c).2.1).1 := by
  induction q generalizing c with
  | done a => rfl
  | note line next ih => exact ih c
  | ask archive name next ih => exact ih _ _

namespace Node

/-- The top-level nodes that are walked are those before the first check that says yes. -/
theorem uncancelled_checks (cancelled : Nat → Bool) (i : Nat) (nodes : List Node) :
    let walked := (uncancelled cancelled i nodes).length
    (∀ j < walked, cancelled (i + j) = false) ∧
      (walked < nodes.length → cancelled (i + walked) = true) := by
  induction nodes generalizing i with
  | nil => simp [uncancelled]
  | cons n rest ih =>
    rw [uncancelled]
    split
    · rename_i hi
      simp [hi]
    · rename_i hi
      obtain ⟨hbefore, hstop⟩ := ih (i + 1)
      refine ⟨?_, ?_⟩
      · intro j hj
        cases j with
        | zero => simpa using hi
        | succ j =>
          have hj' := hbefore j (Nat.lt_of_succ_lt_succ hj)
          rwa [Nat.add_assoc, Nat.add_comm 1 j] at hj'
      · intro hless
        have hlast := hstop (Nat.lt_of_succ_lt_succ hless)
        rwa [Nat.add_assoc, Nat.add_comm 1] at hlast

end Node

namespace Setting
variable {st : Setting}

/-- What the walks of these top-level nodes, one after another, add to the table, node by node. Each
walk starts from what is known, and kept in the corpus, after those before it. -/
def parts (st : Setting) (parent : String) : List Node → Progress → Corpus → List LinkTable
  | [], _, _ => []
  | n :: rest, p, c =>
    let walked := (st.walk [.enter parent n] p).run c
    walked.1.links.drop p.links.length :: st.parts parent rest walked.1 walked.2.1

theorem length_parts (parent : String) (nodes : List Node) (p : Progress) (c : Corpus) :
    (st.parts parent nodes p c).length = nodes.length := by
  induction nodes generalizing p c with
  | nil => rfl
  | cons n rest ih => rw [parts, List.length_cons, ih, List.length_cons]

/-- A walk leaves the table as it was, and adds to it. -/
theorem walk_links (st : Setting) (work : List Work) (p : Progress) (c : Corpus) :
    let walked := (st.walk work p).run c
    walked.1.links = p.links ++ walked.1.links.drop p.links.length := by
  intro walked
  obtain ⟨done, hturns⟩ := Turns.of_walk (Inquiry.run_yields (st.walk work p) c)
  obtain ⟨added, hadded⟩ := hturns.links_grow
  rw [← hadded, List.drop_left]

theorem walkTop_links (st : Setting) (cancelled : Nat → Bool) (parent : String) (i : Nat)
    (nodes : List Node) (p : Progress) (c : Corpus) :
    ((st.walkTop cancelled parent i nodes p).run c).1.1.links =
      p.links ++ ((st.parts parent nodes p c).take
        (Node.uncancelled cancelled i nodes).length).flatten := by
  induction nodes generalizing i p c with
  | nil => simp [walkTop, Inquiry.run, parts]
  | cons n rest ih =>
    rw [walkTop, Node.uncancelled]
    split
    · simp [Inquiry.run]
    · rw [Inquiry.run_bind, ih, parts, List.length_cons, List.take_succ_cons, List.flatten_cons,
        ← List.append_assoc, ← st.walk_links]

/-- The imports are linked before the first check, and each part is one more top-level node. -/
theorem resolve_links (st : Setting) (cancelled : Nat → Bool) (c : Corpus) :
    let start := st.importPass.run c
    let nodes := st.source.root.children
    ((st.resolve cancelled).run c).1.1.links =
      start.1.links ++ ((st.parts st.source.root.kind nodes start.1 start.2.1).take
        (Node.uncancelled cancelled 0 nodes).length).flatten := by
  intro start nodes
  rw [resolve, Inquiry.run_bind, walkTop_links]

theorem resolve_stopped (st : Setting) (cancelled : Nat → Bool) (c : Corpus) :
    ((st.resolve cancelled).run c).1.2 = st.stops cancelled := by
  rw [resolve_agenda, resolveBy, Inquiry.run_bind, Inquiry.run_bind]
  rfl

/-- A cancelled pass keeps the links of what it has walked.

Let `parts` be the links that the top-level nodes add, node by node, in a pass that is not cancelled
and whose table is thus that of the imports and of all the parts. Then a pass over the same corpus,
whatever its checks say, ends with the table of the imports and of the parts before the first check
that says yes, which is a prefix. It is marked as cancelled exactly if a check that it makes says
yes. -/
theorem cancelled_pass_keeps_first_parts (st : Setting) (corpus : Corpus) (cancelled : Nat → Bool) :
    let start := st.importPass.run corpus
    let nodes := st.source.root.children
    let parts := st.parts st.source.root.kind nodes start.1 start.2.1
    let whole := ((st.resolve fun _ => false).run corpus).1
    let ended := ((st.resolve cancelled).run corpus).1
    parts.length = nodes.length ∧ whole.1.links = start.1.links ++ parts.flatten ∧
    (∃ k ≤ nodes.length, (∀ i < k, cancelled i = false) ∧ (k < nodes.length → cancelled k = true) ∧
      ended.1.links = start.1.links ++ (parts.take k).flatten) ∧
    ended.1.links <+: whole.1.links ∧
    (ended.2 = true ↔ ∃ i < nodes.length, (∀ j < i, cancelled j = false) ∧ cancelled i = true) := by
  intro start nodes parts whole ended
  have hlength : parts.length = nodes.length := length_parts ..
  have hwhole : whole.1.links = start.1.links ++ parts.flatten := by
    rw [resolve_links, Node.uncancelled_never, List.take_of_length_le (Nat.le_of_eq hlength)]
  have hlinks : ended.1.links = _ := st.resolve_links cancelled corpus
  have hended : ended.2 = _ := st.resolve_stopped cancelled corpus
  have hle := (Node.uncancelled_prefix cancelled 0 nodes).length_le
  obtain ⟨hbefore, hstop⟩ := Node.uncancelled_checks cancelled 0 nodes
  rw [stops] at hended
  generalize (Node.uncancelled cancelled 0 nodes).length = k at hlinks hended hle hbefore hstop
  simp only [Nat.zero_add] at hbefore hstop
  refine ⟨hlength, hwhole, ⟨k, hle, hbefore, hstop, hlinks⟩, ?_, ?_⟩
  · refine ⟨(parts.drop k).flatten, ?_⟩
    rw [hlinks, hwhole, List.append_assoc, ← List.flatten_append, List.take_append_drop]
  · rw [hended, decide_eq_true_iff]
    constructor
    · intro hless
      exact ⟨k, hless, hbefore, hstop hless⟩
    · rintro ⟨i, hi, -, hpositive⟩
      have hki : k ≤ i := by
        by_contra hik
        rw [hbefore i (Nat.lt_of_not_le hik)] at hpositive
        cases hpositive
      exact Nat.lt_of_le_of_lt hki hi

end Setting
end SourceLinks
