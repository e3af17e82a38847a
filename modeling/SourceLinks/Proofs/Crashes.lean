import SourceLinks.Proofs.CallChains

namespace SourceLinks
variable {α β : Type}

namespace Inquiry
variable {answers answers' : Answers} {q : Inquiry α}

/-- What an inquiry asks: a class and the archive to read it from, one after another. -/
def asked (answers : Answers) : Inquiry α → List (String × String)
  | .done _ => []
  | .note _ next => next.asked answers
  | .ask archive name next => (archive, name) :: (next (answers archive name)).asked answers

/-- Only the answers to what is asked matter. -/
theorem answered_congr (h : ∀ k ∈ q.asked answers, answers' k.1 k.2 = answers k.1 k.2) :
    q.answered answers' = q.answered answers := by
  induction q with
  | done a => rfl
  | note line next ih => exact ih h
  | ask archive name next ih =>
    obtain ⟨hfirst, hrest⟩ := List.forall_mem_cons.mp h
    rw [answered_ask, hfirst, answered_ask]
    exact ih _ hrest

/-- Once an archive crashes, the inquiry can only come to something spoilt. -/
def Fragile (spoilt : α → Prop) : Inquiry α → Prop
  | .done _ => True
  | .note _ next => next.Fragile spoilt
  | .ask _ _ next =>
    (∀ answer, (next answer).Fragile spoilt) ∧ ∀ crash a, (next (.error crash)).Yields a → spoilt a

theorem Fragile.bind {spoilt : α → Prop} {spoilt' : β → Prop} {f : α → Inquiry β}
    (hq : q.Fragile spoilt) (hf : ∀ a, (f a).Fragile spoilt')
    (hspoilt : ∀ a, spoilt a → ∀ b, (f a).Yields b → spoilt' b) : (q >>= f).Fragile spoilt' := by
  induction q with
  | done a => exact hf a
  | note line next ih => exact ih hq
  | ask archive name next ih =>
    refine ⟨fun answer => ih answer (hq.1 answer), ?_⟩
    intro crash b hb
    obtain ⟨a, ha, hb⟩ := yields_bind.mp hb
    exact hspoilt a (hq.2 crash a ha) b hb

/-- A crash among the answers spoils a fragile inquiry. -/
theorem Fragile.spoilt {spoilt : α → Prop} (h : q.Fragile spoilt)
    (hsame : ∀ archive name, answers' archive name = answers archive name ∨
      ∃ crash, answers' archive name = .error crash)
    (hcrash : ∃ k ∈ q.asked answers, ∃ crash, answers' k.1 k.2 = .error crash) :
    spoilt (q.answered answers') := by
  induction q with
  | done a =>
    obtain ⟨k, hk, _⟩ := hcrash
    cases hk
  | note line next ih => exact ih h hcrash
  | ask archive name next ih =>
    have hhere : ∀ crash, answers' archive name = .error crash →
        spoilt ((Inquiry.ask archive name next).answered answers') := by
      intro crash herr
      rw [answered_ask, herr]
      exact h.2 crash _ (answered_yields _ _)
    obtain ⟨k, hk, crash, herr⟩ := hcrash
    rcases List.mem_cons.mp hk with rfl | hk
    · exact hhere crash herr
    · rcases hsame archive name with heq | ⟨crash', herr'⟩
      · rw [answered_ask, heq]
        exact ih _ (h.1 _) ⟨k, hk, crash, herr⟩
      · exact hhere crash' herr'

end Inquiry

namespace Attempt

/-- The attempt ends with a crash as soon as an archive crashes. -/
def Fragile (q : Attempt α) : Prop :=
  Inquiry.Fragile (fun result => ∃ crash, result = .error crash) q.run

theorem Fragile.pure (a : α) : Attempt.Fragile (pure a : Attempt α) := trivial

theorem Fragile.structureOf (archive name : String) :
    (Attempt.structureOf archive name).Fragile := by
  refine ⟨fun _ => trivial, ?_⟩
  intro crash a ha
  exact ⟨crash, Inquiry.yields_done.mp ha⟩

theorem Fragile.bind {q : Attempt α} {f : α → Attempt β} (hq : q.Fragile) (hf : ∀ a, (f a).Fragile) :
    Attempt.Fragile (q >>= f) := by
  unfold Fragile
  rw [ExceptT.run_bind]
  refine Inquiry.Fragile.bind hq ?_ ?_
  · intro result
    cases result with
    | ok a => exact hf a
    | error crash => trivial
  · rintro _ ⟨crash, rfl⟩ b hb
    exact ⟨crash, Inquiry.yields_done.mp hb⟩

end Attempt

namespace Setting
variable {st : Setting} {here : Surroundings}

theorem declaringFrom_fragile (method : String) (bound : Nat) (seen : List String)
    (archive name : String) : (st.declaringFrom method bound seen archive name).Fragile := by
  induction bound generalizing seen archive name with
  | zero => exact .pure _
  | succ bound ih =>
    rw [declaringFrom]
    split
    · exact .pure _
    · refine .bind (.structureOf archive name) fun found => ?_
      cases found with
      | none => exact .pure _
      | some s =>
        simp only
        split
        · exact .pure _
        · split
          · exact .pure _
          · split
            · exact .pure _
            · exact .pure _
            · split
              · exact .pure _
              · exact ih _ _ _

theorem locateMethod_fragile (owner : Target) (method : String) :
    (st.locateMethod owner method).Fragile := by
  refine .bind (declaringFrom_fragile _ _ _ _ _) fun found => ?_
  cases found <;> exact .pure _

theorem superClass_fragile (here : Surroundings) : (st.superClass here).Fragile := by
  unfold superClass
  split
  · exact .pure _
  · split
    · exact .pure _
    · refine .bind (.structureOf _ _) fun found => ?_
      split <;> exact .pure _

theorem plainReceiver_fragile (here : Surroundings) (obj : Node) :
    (st.plainReceiver here obj).Fragile := by
  unfold plainReceiver
  split
  case h_2 => exact superClass_fragile here
  case h_4 =>
    simp only
    split <;> exact .pure _
  all_goals exact .pure _

theorem bareStaticCall_fragile (here : Surroundings) (method : String) :
    (st.bareStaticCall here method).Fragile := by
  refine .bind ?_ fun own => ?_
  · unfold ownMethod?
    split
    · exact declaringFrom_fragile _ _ _ _ _
    · exact .pure _
  · cases own with
    | some target => exact .pure _
    | none =>
      simp only
      split
      · exact locateMethod_fragile _ _
      · exact .pure _

/-- The call has no resolution. -/
def Crashed (outcome : CallOutcome) : Prop :=
  ∃ crash, outcome.1 = .error crash

theorem Crashed.of_methodOf {memo : CallMemo} {method : String} {crash : ReaderCrash}
    {outcome : CallOutcome} (h : (st.methodOf memo method (.error crash)).Yields outcome) :
    Crashed outcome := by
  rw [methodOf, Inquiry.pure_eq, Inquiry.yields_done] at h
  · exact ⟨crash, by rw [h]⟩
  · simp

theorem attempt_fragile {q : Attempt Resolution} (h : q.Fragile) (memo : CallMemo) :
    (q.run >>= fun verdict => Inquiry.done (verdict, memo)).Fragile Crashed := by
  refine .bind h (fun _ => trivial) ?_
  rintro _ ⟨crash, rfl⟩ outcome houtcome
  exact ⟨crash, by rw [Inquiry.yields_done.mp houtcome]⟩

theorem methodOf_fragile (memo : CallMemo) (method : String) (received : Verdict) :
    (st.methodOf memo method received).Fragile Crashed := by
  unfold methodOf
  split
  · exact attempt_fragile (locateMethod_fragile _ _) memo
  · trivial

theorem freshCall_fragile {chained : Option (CallMemo → Node → Inquiry CallOutcome)}
    (hchained : ∀ inner, chained = some inner → ∀ memo n, (inner memo n).Fragile Crashed)
    (memo : CallMemo) (n : Node) : (st.freshCall here chained memo n).Fragile Crashed := by
  unfold freshCall
  split
  · trivial
  · simp only
    split
    · split
      · exact methodOf_fragile _ _ _
      · exact attempt_fragile (bareStaticCall_fragile _ _) memo
    · split
      · cases chained with
        | none => trivial
        | some inner =>
          refine .bind (hchained inner rfl memo _) (fun outcome => methodOf_fragile _ _ _) ?_
          rintro ⟨_, memo⟩ ⟨crash, rfl⟩ outcome houtcome
          exact Crashed.of_methodOf houtcome
      · refine .bind (plainReceiver_fragile _ _) (fun _ => methodOf_fragile _ _ _) ?_
        rintro _ ⟨crash, rfl⟩ outcome houtcome
        exact Crashed.of_methodOf houtcome

/-- A call that needs a class from an archive that crashes has no resolution. -/
theorem resolveAfresh_fragile (here : Surroundings) (depth : Nat) (memo : CallMemo) (n : Node) :
    (st.resolveAfresh here depth memo n).Fragile Crashed := by
  induction depth generalizing memo n with
  | zero => exact freshCall_fragile (by simp) memo n
  | succ depth ih =>
    refine freshCall_fragile (fun inner hinner => ?_) memo n
    cases hinner
    exact ih

end Setting
end SourceLinks
