import SourceLinks.Proofs.Inquiry
import SourceLinks.Proofs.Probing
import SourceLinks.Resolver.Calls

namespace SourceLinks.Setting
variable {st : Setting} {here : Surroundings} {names : List String} {anchor : Option String}
variable {method : String} {owner t : Target} {res : Resolution}

/-- The target is a class that is loaded, in the archive that it is taken from. -/
structure Found (st : Setting) (t : Target) : Prop where
  named : t.name ≠ ""
  located : st.locate? t.name = some t.archive

/-- A resolution that is not made up. -/
def Honest (st : Setting) (res : Resolution) : Prop :=
  ∀ t, res = .resolved t → st.Found t

theorem honest_of_not_resolved (h : ∀ t, res ≠ .resolved t) : st.Honest res := by
  intro t ht
  exact absurd ht (h t)

theorem honest_unresolved (reason : String) : st.Honest (.unresolved reason) :=
  honest_of_not_resolved fun _ h => by cases h

theorem honest_unsupported (reason : String) : st.Honest (.unsupported reason) :=
  honest_of_not_resolved fun _ h => by cases h

theorem honest_resolved (h : st.Found t) : st.Honest (.resolved t) := by
  intro t' ht
  cases ht
  exact h

theorem probe_honest (names : List String) (anchor : Option String) :
    st.Honest (st.probe names anchor) := by
  intro t ht
  obtain ⟨⟨honly, hat⟩, _⟩ := probe_resolved.mp ht
  exact ⟨honly.named, hat⟩

theorem resolveType_honest (here : Surroundings) (name : TypeName) :
    st.Honest (st.resolveType here name) := by
  unfold resolveType
  split
  · split
    · exact probe_honest _ _
    · exact honest_unresolved _
  · exact probe_honest _ _

theorem resolveSimple_honest (here : Surroundings) (name : String) :
    st.Honest (st.resolveSimple here name) := by
  unfold resolveSimple
  split
  · exact honest_unresolved _
  · exact resolveType_honest _ _
  simp only
  split
  · exact probe_honest _ _
  split
  · split
    · exact probe_honest _ _
    · exact probe_honest _ _
  · exact probe_honest _ _

theorem thisClass_honest (here : Surroundings) : st.Honest (st.thisClass here) := by
  unfold thisClass
  split
  · exact honest_unresolved _
  · exact probe_honest _ _

theorem superClass_honest (h : (st.superClass here).Yields res) : st.Honest res := by
  unfold superClass at h
  split at h
  · rw [Attempt.yields_pure] at h
    subst h
    exact honest_unresolved _
  split at h
  · rw [Attempt.yields_pure] at h
    subst h
    exact honest_unresolved _
  rw [Attempt.yields_bind] at h
  obtain ⟨s, _, h⟩ := h
  split at h <;> rw [Attempt.yields_pure] at h <;> subst h
  · exact honest_unresolved _
  · exact honest_unresolved _
  · exact probe_honest _ _

/-- Every class on the way up is looked up before it is taken. -/
theorem declaringFrom_found {bound : Nat} {seen : List String} {archive name : String}
    (hnamed : name ≠ "") (hat : st.locate? name = some archive)
    (h : (st.declaringFrom method bound seen archive name).Yields (some t)) : st.Found t := by
  induction bound generalizing seen archive name with
  | zero => simp [declaringFrom] at h
  | succ bound ih =>
    rw [declaringFrom] at h
    split at h
    · simp at h
    rw [Attempt.yields_bind] at h
    obtain ⟨s, _, h⟩ := h
    split at h
    · simp at h
    rename_i s
    simp only at h
    split at h
    · simp only [Attempt.yields_pure, Option.some.injEq] at h
      subst h
      exact ⟨hnamed, hat⟩
    split at h
    · simp at h
    split at h
    · simp at h
    · simp at h
    · rename_i above hne _
      split at h
      · simp at h
      · rename_i next hnext
        exact ih hne hnext h

theorem declaring_found (ho : st.Found owner)
    (h : (st.declaring? owner method).Yields (some t)) : st.Found t :=
  declaringFrom_found ho.named ho.located h

theorem locateMethod_honest (ho : st.Found owner)
    (h : (st.locateMethod owner method).Yields res) : st.Honest res := by
  rw [locateMethod, Attempt.yields_bind] at h
  obtain ⟨declared, hd, h⟩ := h
  cases declared with
  | some target =>
    rw [Attempt.yields_pure] at h
    subst h
    exact honest_resolved (declaring_found ho hd)
  | none =>
    rw [Attempt.yields_pure] at h
    subst h
    exact honest_resolved ⟨ho.named, ho.located⟩

theorem ownMethod_found (h : (st.ownMethod? here method).Yields (some t)) : st.Found t := by
  unfold ownMethod? at h
  split at h
  · rename_i owner howner
    exact declaring_found (thisClass_honest here owner howner) h
  · simp at h

theorem bareStaticCall_honest (h : (st.bareStaticCall here method).Yields res) : st.Honest res := by
  rw [bareStaticCall, Attempt.yields_bind] at h
  obtain ⟨own, hown, h⟩ := h
  cases own with
  | some target =>
    rw [Attempt.yields_pure] at h
    subst h
    exact honest_resolved (ownMethod_found hown)
  | none =>
    simp only at h
    split at h
    · rename_i owner howner
      exact locateMethod_honest (probe_honest _ _ owner howner) h
    · rw [Attempt.yields_pure] at h
      subst h
      exact probe_honest _ _

theorem writtenReceiver_honest (here : Surroundings) (type : Option Node) (otherwise : String) :
    st.Honest (st.writtenReceiver here type otherwise) := by
  unfold writtenReceiver
  split
  · exact honest_unsupported _
  · exact resolveType_honest _ _

theorem plainReceiver_honest {obj : Node} (h : (st.plainReceiver here obj).Yields res) :
    st.Honest res := by
  unfold plainReceiver at h
  split at h
  case h_2 => exact superClass_honest h
  case h_4 =>
    simp only at h
    split at h <;> rw [Attempt.yields_pure] at h <;> subst h
    · exact writtenReceiver_honest _ _ _
    · exact honest_unsupported _
  all_goals
    rw [Attempt.yields_pure] at h
    subst h
  · exact thisClass_honest _
  · exact resolveSimple_honest _ _
  · exact writtenReceiver_honest _ _ _
  · exact probe_honest _ _
  · exact honest_unsupported _
  · exact honest_unsupported _

theorem returnedClass_honest (res : Resolution) : st.Honest (st.returnedClass res) := by
  unfold returnedClass
  split
  · exact probe_honest _ _
  · exact honest_unresolved _
  · exact honest_unresolved _

/-- What is remembered of calls is not made up. -/
def HonestMemo (st : Setting) (memo : CallMemo) : Prop :=
  ∀ e ∈ memo, st.Honest e.2

/-- What comes of a call, crashes apart. -/
def HonestOutcome (st : Setting) (outcome : Except ReaderCrash Resolution) : Prop :=
  ∀ res, outcome = .ok res → st.Honest res

/-- A way to resolve calls that makes nothing up as long as what is remembered is not. -/
def HonestCalls (st : Setting) (resolve : CallMemo → Node → Inquiry CallOutcome) : Prop :=
  ∀ memo node outcome memo', st.HonestMemo memo → (resolve memo node).Yields (outcome, memo') →
    st.HonestOutcome outcome ∧ st.HonestMemo memo'

theorem HonestMemo.of_lookup {memo : CallMemo} (h : st.HonestMemo memo) {key : Nat × Nat}
    (hl : memo.lookup key = some res) : st.Honest res := by
  obtain ⟨before, after, rfl, _⟩ := List.lookup_eq_some_iff.mp hl
  exact h (key, res) (by simp)

theorem HonestMemo.cons {memo : CallMemo} (h : st.HonestMemo memo) (key : Nat × Nat)
    (hr : st.Honest res) : st.HonestMemo ((key, res) :: memo) := by
  intro e he
  rcases List.mem_cons.mp he with rfl | he
  · exact hr
  · exact h e he

theorem outcome_honest (h : st.Honest res) : st.HonestOutcome (.ok res) := by
  intro res' hres
  cases hres
  exact h

theorem returned_honest (received : Except ReaderCrash Resolution) :
    st.HonestOutcome (received.map st.returnedClass) := by
  cases received with
  | ok res => exact outcome_honest (returnedClass_honest res)
  | error crash =>
    intro res hres
    cases hres

theorem attempt_honest {q : Attempt Resolution} {outcome : Except ReaderCrash Resolution}
    (hq : ∀ res, q.Yields res → st.Honest res) (h : q.run.Yields outcome) :
    st.HonestOutcome outcome := by
  intro res hres
  subst hres
  exact hq res h

theorem methodOf_honest {memo memo' : CallMemo} {receiver outcome : Except ReaderCrash Resolution}
    (hr : st.HonestOutcome receiver)
    (h : (st.methodOf memo method receiver).Yields (outcome, memo')) :
    st.HonestOutcome outcome ∧ memo' = memo := by
  unfold methodOf at h
  split at h
  · rename_i owner
    have ho : st.Found owner := hr _ rfl owner rfl
    rw [Inquiry.yields_bind] at h
    obtain ⟨located, hl, h⟩ := h
    obtain ⟨rfl, rfl⟩ := Inquiry.yields_pair.mp h
    exact ⟨attempt_honest (fun res => locateMethod_honest ho) hl, rfl⟩
  · obtain ⟨rfl, rfl⟩ := Inquiry.yields_pair.mp h
    exact ⟨hr, rfl⟩

theorem freshCall_honest {chained : Option (CallMemo → Node → Inquiry CallOutcome)}
    (hc : ∀ inner, chained = some inner → st.HonestCalls inner) :
    st.HonestCalls (st.freshCall here chained) := by
  intro memo node outcome memo' hmemo h
  unfold freshCall at h
  split at h
  · obtain ⟨rfl, rfl⟩ := Inquiry.yields_pair.mp h
    exact ⟨outcome_honest (honest_unsupported _), hmemo⟩
  simp only at h
  split at h
  · split at h
    · obtain ⟨ho, rfl⟩ := methodOf_honest (outcome_honest (thisClass_honest _)) h
      exact ⟨ho, hmemo⟩
    · rw [Inquiry.yields_bind] at h
      obtain ⟨called, hcalled, h⟩ := h
      obtain ⟨rfl, rfl⟩ := Inquiry.yields_pair.mp h
      exact ⟨attempt_honest (fun _ => bareStaticCall_honest) hcalled, hmemo⟩
  split at h
  · split at h
    · obtain ⟨rfl, rfl⟩ := Inquiry.yields_pair.mp h
      exact ⟨outcome_honest (honest_unsupported _), hmemo⟩
    · rename_i inner
      rw [Inquiry.yields_bind] at h
      obtain ⟨⟨received, between⟩, hinner, h⟩ := h
      obtain ⟨_, hbetween⟩ := hc inner rfl memo _ received between hmemo hinner
      obtain ⟨ho, rfl⟩ := methodOf_honest (returned_honest received) h
      exact ⟨ho, hbetween⟩
  · rw [Inquiry.yields_bind] at h
    obtain ⟨received, hr, h⟩ := h
    obtain ⟨ho, rfl⟩ := methodOf_honest (attempt_honest (fun _ => plainReceiver_honest) hr) h
    exact ⟨ho, hmemo⟩

/-- Remembering keeps what was honest; a crash leaves nothing behind. -/
theorem remembered_honest {resolve : CallMemo → Node → Inquiry CallOutcome}
    (hr : st.HonestCalls resolve) : st.HonestCalls (remembered resolve) := by
  intro memo node outcome memo' hmemo h
  unfold remembered at h
  split at h
  · rename_i res hlookup
    obtain ⟨rfl, rfl⟩ := Inquiry.yields_pair.mp h
    exact ⟨outcome_honest (hmemo.of_lookup hlookup), hmemo⟩
  rw [Inquiry.yields_bind] at h
  obtain ⟨⟨fresh, between⟩, hfresh, h⟩ := h
  obtain ⟨ho, hbetween⟩ := hr memo node fresh between hmemo hfresh
  cases fresh with
  | ok res =>
    obtain ⟨rfl, rfl⟩ := Inquiry.yields_pair.mp h
    exact ⟨ho, hbetween.cons _ (ho res rfl)⟩
  | error crash =>
    obtain ⟨rfl, rfl⟩ := Inquiry.yields_pair.mp h
    exact ⟨ho, hbetween⟩

/-- Calls are honest however deep their receivers are. -/
theorem resolveCall_honest (here : Surroundings) (depth : Nat) :
    st.HonestCalls (st.resolveCall here depth) := by
  induction depth with
  | zero =>
    apply remembered_honest
    apply freshCall_honest
    intro inner hinner
    cases hinner
  | succ depth ih =>
    apply remembered_honest
    apply freshCall_honest
    intro inner hinner
    cases hinner
    exact ih

end SourceLinks.Setting
