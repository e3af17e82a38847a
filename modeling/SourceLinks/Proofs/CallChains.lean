import SourceLinks.Proofs.Answers
import SourceLinks.Resolver.Calls

namespace SourceLinks

/-- What comes of a call: its resolution, unless a crash prevents it. -/
abbrev Verdict := Except ReaderCrash Resolution

namespace Node

/-- The octets that a node covers. -/
def span (n : Node) : Nat × Nat :=
  (n.start, n.stop)

/-- The call on whose result a call is made. A call without a name has no use for it. -/
def receiver? (n : Node) : Option Node :=
  match n.child? "name", n.child? "object" with
  | some _, some obj => if obj.kind = "method_invocation" then some obj else none
  | _, _ => none

theorem receiver_eq_some {n m : Node} (h : n.receiver? = some m) :
    (∃ name, n.child? "name" = some name) ∧ n.child? "object" = some m ∧
      m.kind = "method_invocation" := by
  unfold receiver? at h
  split at h
  · rename_i name obj hname hobj
    split at h
    · rename_i hkind
      cases h
      exact ⟨⟨name, hname⟩, hobj, hkind⟩
    · cases h
  · cases h

theorem receiver_mem {n m : Node} (h : n.receiver? = some m) : m ∈ n.children :=
  List.mem_of_find?_eq_some (receiver_eq_some h).2.1

theorem sizeOf_receiver {n m : Node} (h : n.receiver? = some m) : sizeOf m < sizeOf n := by
  have hlt := List.sizeOf_lt_of_mem (receiver_mem h)
  obtain ⟨kind, field, named, missing, start, stop, children⟩ := n
  simp only [Node.mk.sizeOf_spec] at hlt ⊢
  omega

/-- A call followed by the calls that it is made on, the innermost last. -/
def chain (n : Node) : List Node :=
  match _ : n.receiver? with
  | none => [n]
  | some m => n :: m.chain
termination_by sizeOf n
decreasing_by
  apply sizeOf_receiver
  assumption

theorem chain_last {n : Node} (h : n.receiver? = none) : n.chain = [n] := by
  rw [chain]
  split
  · rfl
  · rename_i m hm
    cases h.symm.trans hm

theorem chain_more {n m : Node} (h : n.receiver? = some m) : n.chain = n :: m.chain := by
  rw [chain]
  split
  · rename_i hnone
    cases h.symm.trans hnone
  · rename_i m' hm
    cases h.symm.trans hm
    rfl

/-- What holds of a call made on no other, and of a call if it holds of its receiver, holds of all. -/
theorem chain_induction {motive : Node → Prop} (last : ∀ n, n.receiver? = none → motive n)
    (more : ∀ n m, n.receiver? = some m → motive m → motive n) (n : Node) : motive n := by
  cases h : n.receiver? with
  | none => exact last n h
  | some m => exact more n m h (chain_induction last more m)
termination_by sizeOf n
decreasing_by exact sizeOf_receiver h

theorem mem_chain_self (n : Node) : n ∈ n.chain := by
  cases h : n.receiver? with
  | none => simp [chain_last h]
  | some m => simp [chain_more h]

theorem length_chain_pos (n : Node) : 0 < n.chain.length :=
  List.length_pos_of_mem n.mem_chain_self

/-- From any of its calls on, a chain is the call's own chain. -/
theorem chain_from {n x : Node} {before after : List Node} (h : n.chain = before ++ x :: after) :
    x.chain = x :: after := by
  induction before generalizing n with
  | nil =>
    cases hn : n.receiver? with
    | none =>
      rw [chain_last hn, List.nil_append, List.cons.injEq] at h
      obtain ⟨rfl, rfl⟩ := h
      exact chain_last hn
    | some m =>
      rw [chain_more hn, List.nil_append, List.cons.injEq] at h
      obtain ⟨rfl, rfl⟩ := h
      exact chain_more hn
  | cons b before ih =>
    cases hn : n.receiver? with
    | none => simp [chain_last hn] at h
    | some m =>
      rw [chain_more hn, List.cons_append, List.cons.injEq] at h
      exact ih h.2

/-- With a call, a chain has all of the call's own chain. -/
theorem chain_suffix {n x : Node} (h : x ∈ n.chain) : x.chain <:+ n.chain := by
  obtain ⟨before, after, hsplit⟩ := List.append_of_mem h
  rw [chain_from hsplit]
  exact ⟨before, hsplit.symm⟩

/-- Behind any number of its calls, a chain is a chain again. -/
theorem chain_split {n : Node} {k : Nat} (hk : k < n.chain.length) :
    ∃ block inside, n.chain = block ++ chain inside ∧ block.length = k := by
  obtain ⟨inside, after, hdrop⟩ := List.exists_cons_of_ne_nil
    (List.ne_nil_of_length_pos (by rw [List.length_drop]; omega) : n.chain.drop k ≠ [])
  have hsplit : n.chain = n.chain.take k ++ inside :: after := by
    rw [← hdrop, List.take_append_drop]
  refine ⟨n.chain.take k, inside, ?_, List.length_take_of_le (Nat.le_of_lt hk)⟩
  rw [chain_from hsplit]
  exact hsplit

/-- A chain of more than one call goes on. -/
theorem receiver_of_chain {n x inside : Node} {block : List Node}
    (h : n.chain = x :: block ++ inside.chain) : ∃ m, n.receiver? = some m := by
  cases hn : n.receiver? with
  | some m => exact ⟨m, rfl⟩
  | none =>
    have hlen := congrArg List.length h
    have hpos := inside.length_chain_pos
    rw [chain_last hn, List.length_append, List.length_cons, List.length_cons, List.length_nil] at hlen
    omega

end Node

namespace Setting
variable {st : Setting} {answers : Answers} {here : Surroundings} {n m : Node} {memo : CallMemo}
variable {chained : Option (CallMemo → Node → Inquiry CallOutcome)}

/-- A call whose receiver has come to this. -/
def onReceiver (st : Setting) (answers : Answers) (method : String) : Verdict → Verdict
  | .ok (.resolved owner) => (st.locateMethod owner method).answered answers
  | settled => settled

theorem methodOf_answered (memo : CallMemo) (method : String) (received : Verdict) :
    (st.methodOf memo method received).answered answers =
      (st.onReceiver answers method received, memo) := by
  unfold methodOf onReceiver
  split
  · simp [Attempt.answered]
  · simp

/-- A call on what another call returns, which has come to this. -/
def onward (st : Setting) (answers : Answers) (n : Node) (inner : Verdict) : Verdict :=
  st.onReceiver answers (((n.child? "name").map st.source.text).getD "") (inner.map st.returnedClass)

/-- A call that is made on no other. -/
def settled (st : Setting) (answers : Answers) (here : Surroundings) (n : Node) : Verdict :=
  ((st.freshCall here none [] n).answered answers).1

theorem freshCall_last (h : n.receiver? = none) :
    (st.freshCall here chained memo n).answered answers = (st.settled answers here n, memo) := by
  unfold settled freshCall
  cases hname : n.child? "name" with
  | none => simp
  | some name =>
    cases hobj : n.child? "object" with
    | none =>
      simp only
      split <;> simp [methodOf_answered]
    | some obj =>
      have hkind : obj.kind ≠ "method_invocation" := by
        intro hkind
        simp [Node.receiver?, hname, hobj, hkind] at h
      simp [hkind, methodOf_answered]

theorem freshCall_more {inner : CallMemo → Node → Inquiry CallOutcome} (h : n.receiver? = some m) :
    (st.freshCall here (some inner) memo n).answered answers =
      (st.onward answers n ((inner memo m).answered answers).1,
        ((inner memo m).answered answers).2) := by
  obtain ⟨⟨name, hname⟩, hobj, hkind⟩ := Node.receiver_eq_some h
  simp [freshCall, hname, hobj, hkind, methodOf_answered, onward]

theorem freshCall_deep (h : n.receiver? = some m) :
    (st.freshCall here none memo n).answered answers =
      (.ok (.unsupported "call chain too deep"), memo) := by
  obtain ⟨⟨name, hname⟩, hobj, hkind⟩ := Node.receiver_eq_some h
  simp [freshCall, hname, hobj, hkind]

/-- A call from the inside of its chain outwards, however long that is and with nothing remembered. -/
def unlimited (st : Setting) (answers : Answers) (here : Surroundings) (n : Node) : Verdict :=
  match _ : n.receiver? with
  | none => st.settled answers here n
  | some m => st.onward answers n (st.unlimited answers here m)
termination_by sizeOf n
decreasing_by
  apply Node.sizeOf_receiver
  assumption

theorem unlimited_last (h : n.receiver? = none) :
    st.unlimited answers here n = st.settled answers here n := by
  rw [unlimited]
  split
  · rfl
  · rename_i hm
    cases h.symm.trans hm

theorem unlimited_more (h : n.receiver? = some m) :
    st.unlimited answers here n = st.onward answers n (st.unlimited answers here m) := by
  rw [unlimited]
  split
  · rename_i hnone
    cases h.symm.trans hnone
  · rename_i hm
    cases h.symm.trans hm
    rfl

/-- A call of this depth at most, resolved from the start with nothing remembered. -/
def resolveAfresh (st : Setting) (here : Surroundings) :
    (depth : Nat) → CallMemo → Node → Inquiry CallOutcome
  | 0 => st.freshCall here none
  | depth + 1 => st.freshCall here (some (st.resolveAfresh here depth))

/-- A limit that the chain keeps makes no difference. -/
theorem resolveAfresh_fits {depth : Nat} (hlen : n.chain.length ≤ depth + 1) (memo : CallMemo) :
    (st.resolveAfresh here depth memo n).answered answers = (st.unlimited answers here n, memo) := by
  induction n using Node.chain_induction generalizing depth with
  | last n hn =>
    rw [unlimited_last hn]
    cases depth <;> exact freshCall_last hn
  | more n m hm ih =>
    rw [Node.chain_more hm, List.length_cons] at hlen
    have hpos := m.length_chain_pos
    cases depth with
    | zero => omega
    | succ depth =>
      rw [resolveAfresh, freshCall_more hm, ih (by omega), unlimited_more hm]

/-- Remembers what has come of a call, unless that is a crash. -/
def keep (n : Node) : CallOutcome → CallOutcome
  | (.ok res, memo) => (.ok res, (n.span, res) :: memo)
  | (.error crash, memo) => (.error crash, memo)

theorem keep_eq (n : Node) (verdict : Verdict) (memo : CallMemo) :
    keep n (verdict, memo) = (verdict, (keep n (verdict, memo)).2) := by
  cases verdict <;> rfl

/-- A call that is remembered is not resolved again; any other is, and is remembered then. -/
theorem remembered_answered (resolve : CallMemo → Node → Inquiry CallOutcome) (memo : CallMemo)
    (n : Node) :
    (remembered resolve memo n).answered answers =
      match memo.lookup n.span with
      | some res => (.ok res, memo)
      | none => keep n ((resolve memo n).answered answers) := by
  unfold remembered
  rw [show (n.start, n.stop) = n.span from rfl]
  cases memo.lookup n.span with
  | some res => rfl
  | none =>
    simp only [Inquiry.answered_bind]
    generalize (resolve memo n).answered answers = outcome
    obtain ⟨verdict, memo'⟩ := outcome
    cases verdict <;> rfl

theorem resolveCall_known {res : Resolution} (h : memo.lookup n.span = some res) (depth : Nat) :
    (st.resolveCall here depth memo n).answered answers = (.ok res, memo) := by
  cases depth <;> rw [resolveCall, remembered_answered, h]

theorem resolveCall_last (h : memo.lookup n.span = none) (hn : n.receiver? = none) (depth : Nat) :
    (st.resolveCall here depth memo n).answered answers =
      keep n (st.settled answers here n, memo) := by
  cases depth <;> rw [resolveCall, remembered_answered, h, freshCall_last hn]

theorem resolveCall_more (h : memo.lookup n.span = none) (hm : n.receiver? = some m) (depth : Nat) :
    (st.resolveCall here (depth + 1) memo n).answered answers =
      keep n (st.onward answers n ((st.resolveCall here depth memo m).answered answers).1,
        ((st.resolveCall here depth memo m).answered answers).2) := by
  rw [resolveCall, remembered_answered, h, freshCall_more hm]

theorem resolveCall_deep (h : memo.lookup n.span = none) (hm : n.receiver? = some m) :
    (st.resolveCall here 0 memo n).answered answers =
      (.ok (.unsupported "call chain too deep"),
        (n.span, .unsupported "call chain too deep") :: memo) := by
  rw [resolveCall, remembered_answered, h, freshCall_deep hm]
  rfl

/-- What is remembered of these calls is what they come to. -/
def Right (st : Setting) (answers : Answers) (here : Surroundings) (calls : List Node)
    (memo : CallMemo) : Prop :=
  ∀ x ∈ calls, ∀ res, memo.lookup x.span = some res → st.unlimited answers here x = .ok res

/-- From `memo` to `memo'` some of these calls have been remembered for what they come to, and nothing
else has. -/
def Learns (st : Setting) (answers : Answers) (here : Surroundings) (calls : List Node)
    (memo memo' : CallMemo) : Prop :=
  ∀ key res, memo'.lookup key = some res → memo.lookup key = some res ∨
    ∃ x ∈ calls, x.span = key ∧ st.unlimited answers here x = .ok res

theorem Learns.refl (calls : List Node) (memo : CallMemo) :
    st.Learns answers here calls memo memo :=
  fun _ _ h => .inl h

theorem Learns.mono {calls more : List Node} {memo' : CallMemo} (hsub : calls ⊆ more)
    (h : st.Learns answers here calls memo memo') : st.Learns answers here more memo memo' := by
  intro key res hres
  rcases h key res hres with hold | ⟨x, hx, hkey, hv⟩
  · exact .inl hold
  · exact .inr ⟨x, hsub hx, hkey, hv⟩

theorem Learns.keep {calls : List Node} {memo' : CallMemo} (hn : n ∈ calls)
    (h : st.Learns answers here calls memo memo') :
    st.Learns answers here calls memo (keep n (st.unlimited answers here n, memo')).2 := by
  cases hv : st.unlimited answers here n with
  | error crash => exact h
  | ok res =>
    intro key res' hres
    simp only [Setting.keep, List.lookup_cons] at hres
    split at hres
    · rename_i hkey
      cases hres
      exact .inr ⟨n, hn, (beq_iff_eq.mp hkey).symm, hv⟩
    · exact h key res' hres

/-- A call whose chain keeps the limit comes to what it comes to without one. -/
theorem resolveCall_fits {depth : Nat} (hlen : n.chain.length ≤ depth + 1)
    (hright : st.Right answers here n.chain memo) :
    ∃ memo', (st.resolveCall here depth memo n).answered answers =
        (st.unlimited answers here n, memo') ∧ st.Learns answers here n.chain memo memo' := by
  induction n using Node.chain_induction generalizing depth memo with
  | last n hn =>
    cases hknown : memo.lookup n.span with
    | some res =>
      rw [resolveCall_known hknown, hright n n.mem_chain_self res hknown]
      exact ⟨memo, rfl, .refl _ _⟩
    | none =>
      rw [resolveCall_last hknown hn, ← unlimited_last hn]
      exact ⟨_, keep_eq _ _ _, (Learns.refl _ _).keep n.mem_chain_self⟩
  | more n m hm ih =>
    cases hknown : memo.lookup n.span with
    | some res =>
      rw [resolveCall_known hknown, hright n n.mem_chain_self res hknown]
      exact ⟨memo, rfl, .refl _ _⟩
    | none =>
      have hsub : m.chain ⊆ n.chain := by
        rw [Node.chain_more hm]
        exact List.subset_cons_self _ _
      rw [Node.chain_more hm, List.length_cons] at hlen
      have hpos := m.length_chain_pos
      obtain ⟨depth, rfl⟩ : ∃ d, depth = d + 1 := ⟨depth - 1, by omega⟩
      have hfits : m.chain.length ≤ depth + 1 := by omega
      obtain ⟨memo', hinner, hlearns⟩ := ih hfits fun x hx => hright x (hsub hx)
      rw [resolveCall_more hknown hm, hinner, ← unlimited_more hm]
      exact ⟨_, keep_eq _ _ _, (hlearns.mono hsub).keep n.mem_chain_self⟩

/-- What a call comes to that is cut off with so many calls between it and the limit. -/
def blocked : Nat → Resolution
  | 0 => .unsupported "call chain too deep"
  | _ + 1 => .unresolved "receiver call unresolved"

/-- What is remembered of the calls of a chain that the limit cuts off behind the last of them. -/
def blockedEntries : List Node → CallMemo
  | [] => []
  | x :: rest => (x.span, blocked rest.length) :: blockedEntries rest

theorem onward_blocked (n : Node) (left : Nat) :
    st.onward answers n (.ok (blocked left)) = .ok (.unresolved "receiver call unresolved") := by
  cases left <;> rfl

/-- A call whose chain exceeds the limit is cut off, and so are those that it came through. -/
theorem resolveCall_blocked {depth : Nat} {block : List Node} {inside : Node}
    (hchain : n.chain = block ++ inside.chain) (hlen : block.length = depth + 1)
    (hfree : ∀ x ∈ block, memo.lookup x.span = none) :
    (st.resolveCall here depth memo n).answered answers =
      (.ok (blocked depth), blockedEntries block ++ memo) := by
  induction depth generalizing n block with
  | zero =>
    obtain ⟨x, rfl⟩ := List.length_eq_one_iff.mp hlen
    obtain ⟨m, hm⟩ := Node.receiver_of_chain hchain
    rw [Node.chain_more hm, List.singleton_append, List.cons.injEq] at hchain
    obtain ⟨rfl, _⟩ := hchain
    rw [resolveCall_deep (hfree n (by simp)) hm]
    rfl
  | succ depth ih =>
    obtain ⟨x, block, rfl⟩ := List.exists_cons_of_length_eq_add_one hlen
    obtain ⟨m, hm⟩ := Node.receiver_of_chain hchain
    rw [Node.chain_more hm, List.cons_append, List.cons.injEq] at hchain
    obtain ⟨rfl, hchain⟩ := hchain
    rw [List.length_cons, Nat.add_right_cancel_iff] at hlen
    have hinner := ih hchain hlen fun y hy => hfree y (by simp [hy])
    rw [resolveCall_more (hfree n (by simp)) hm, hinner, onward_blocked]
    simp [keep, blockedEntries, hlen, blocked]

end Setting
end SourceLinks
