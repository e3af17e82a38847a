import Mathlib.Data.List.Forall2
import SourceLinks.Proofs.DiagnosticBlock
import SourceLinks.Proofs.Places
import SourceLinks.Task

namespace SourceLinks

namespace Node
variable {n m : Node} {π : Place}

/-- The node at a place; the empty place is that of the node itself. -/
def at? (n : Node) : Place → Option Node
  | [] => some n
  | i :: π => n.children[i]?.bind fun c => c.at? π

/-- A faulty node stands at the place, and none above it. -/
def OutermostFault (n : Node) (π : Place) : Prop :=
  (∃ m, n.at? π = some m ∧ m.isFaulty = true) ∧
    ∀ σ m, σ <+: π → σ ≠ π → n.at? σ = some m → m.isFaulty = false

mutual
/-- The places of the outermost faulty nodes in document order. -/
def faultPlaces : Node → List Place
  | ⟨kind, field, named, missing, start, stop, children⟩ =>
    if isFaulty ⟨kind, field, named, missing, start, stop, children⟩ then [[]]
    else faultPlacesAmong 0 children

/-- Those below the children from number `i` on. -/
def faultPlacesAmong (i : Nat) : List Node → List Place
  | [] => []
  | c :: rest => c.faultPlaces.map (i :: ·) ++ faultPlacesAmong (i + 1) rest
end

theorem faultPlaces_eq (n : Node) :
    n.faultPlaces = if n.isFaulty then [[]] else belowEach faultPlaces 0 n.children := by
  have hamong : ∀ i nodes, faultPlacesAmong i nodes = belowEach faultPlaces i nodes := by
    intro i nodes
    induction nodes generalizing i with
    | nil => rfl
    | cons c rest ih => rw [faultPlacesAmong, belowEach, ih]
  obtain ⟨kind, field, named, missing, start, stop, children⟩ := n
  rw [faultPlaces, hamong]

theorem outermostFault_nil : n.OutermostFault [] ↔ n.isFaulty = true := by
  constructor
  · rintro ⟨⟨m, hm, hfault⟩, _⟩
    cases hm
    exact hfault
  · intro hfault
    refine ⟨⟨n, rfl, hfault⟩, ?_⟩
    intro σ m hσ hne
    exact absurd (List.prefix_nil.mp hσ) hne

/-- Below a node that is not faulty itself, the outermost faults are those of its children. -/
theorem outermostFault_cons {i : Nat} :
    n.OutermostFault (i :: π) ↔
      n.isFaulty = false ∧ ∃ c, n.children[i]? = some c ∧ c.OutermostFault π := by
  constructor
  · rintro ⟨⟨m, hm, hfault⟩, habove⟩
    have hself : n.isFaulty = false := habove [] n List.nil_prefix (by simp) rfl
    simp only [at?, Option.bind_eq_some_iff] at hm
    obtain ⟨c, hc, hm⟩ := hm
    refine ⟨hself, c, hc, ⟨m, hm, hfault⟩, ?_⟩
    intro σ m' hσ hne hm'
    refine habove (i :: σ) m' (List.cons_prefix_cons.mpr ⟨rfl, hσ⟩) (by simpa using hne) ?_
    simpa [at?, hc] using hm'
  · rintro ⟨hself, c, hc, ⟨m, hm, hfault⟩, habove⟩
    refine ⟨⟨m, by simpa [at?, hc] using hm, hfault⟩, ?_⟩
    intro σ m' hσ hne hm'
    cases σ with
    | nil =>
      obtain rfl : n = m' := by simpa [at?] using hm'
      exact hself
    | cons j σ =>
      obtain ⟨rfl, hbelow⟩ := List.cons_prefix_cons.mp hσ
      exact habove σ m' hbelow (by simpa using hne) (by simpa [at?, hc] using hm')

theorem mem_faultPlaces : π ∈ n.faultPlaces ↔ n.OutermostFault π := by
  induction π generalizing n with
  | nil =>
    rw [faultPlaces_eq, outermostFault_nil]
    split
    · rename_i hself
      simp [hself]
    · rename_i hself
      simp [mem_belowEach, hself]
  | cons i π ih =>
    rw [faultPlaces_eq, outermostFault_cons]
    split
    · rename_i hself
      simp [hself]
    · rename_i hself
      rw [mem_belowEach]
      constructor
      · rintro ⟨j, c, σ, hc, hσ, he⟩
        simp only [Nat.zero_add, List.cons.injEq] at he
        obtain ⟨rfl, rfl⟩ := he
        exact ⟨by simpa using hself, c, hc, ih.mp hσ⟩
      · rintro ⟨_, c, hc, hout⟩
        exact ⟨i, c, π, hc, ih.mpr hout, by simp⟩

theorem faultPlaces_sorted (n : Node) : n.faultPlaces.Pairwise (List.Lex (· < ·)) := by
  induction n using Node.induct with
  | step n ih =>
    rw [faultPlaces_eq]
    split
    · exact List.pairwise_singleton _ _
    · exact belowEach_sorted 0 ih

theorem anyError_eq (nodes : List Node) : anyError nodes = nodes.any hasError := by
  induction nodes with
  | nil => rfl
  | cons c rest ih => rw [anyError, List.any_cons, ih]

theorem hasError_eq (n : Node) : n.hasError = (n.isFaulty || n.children.any hasError) := by
  obtain ⟨kind, field, named, missing, start, stop, children⟩ := n
  rw [hasError, anyError_eq, isFaulty]

/-- A tree holds a fault if and only if it has an outermost one. -/
theorem hasError_iff_outermost : n.hasError = true ↔ ∃ π, n.OutermostFault π := by
  induction n using Node.induct with
  | step n ih =>
    rw [hasError_eq, Bool.or_eq_true, List.any_eq_true]
    constructor
    · rintro (hself | ⟨c, hmem, hc⟩)
      · exact ⟨[], outermostFault_nil.mpr hself⟩
      · cases hself : n.isFaulty with
        | true => exact ⟨[], outermostFault_nil.mpr hself⟩
        | false =>
          obtain ⟨π, hπ⟩ := (ih c hmem).mp hc
          obtain ⟨i, hi⟩ := List.getElem?_of_mem hmem
          exact ⟨i :: π, outermostFault_cons.mpr ⟨hself, c, hi, hπ⟩⟩
    · rintro ⟨π, hπ⟩
      cases π with
      | nil => exact .inl (outermostFault_nil.mp hπ)
      | cons i π =>
        obtain ⟨_, c, hc, hπ⟩ := outermostFault_cons.mp hπ
        have hmem := List.mem_of_getElem? hc
        exact .inr ⟨c, hmem, (ih c hmem).mpr ⟨π, hπ⟩⟩

/-- A tree holds a fault if and only if some node of it is faulty. -/
theorem hasError_iff : n.hasError = true ↔ ∃ π m, n.at? π = some m ∧ m.isFaulty = true := by
  constructor
  · intro h
    obtain ⟨π, ⟨m, hm, hfault⟩, _⟩ := hasError_iff_outermost.mp h
    exact ⟨π, m, hm, hfault⟩
  · rintro ⟨π, m, hm, hfault⟩
    induction π generalizing n with
    | nil =>
      cases hm
      rw [hasError_eq, hfault, Bool.true_or]
    | cons i π ih =>
      simp only [at?, Option.bind_eq_some_iff] at hm
      obtain ⟨c, hc, hm⟩ := hm
      rw [hasError_eq, Bool.or_eq_true, List.any_eq_true]
      exact .inr ⟨c, List.mem_of_getElem? hc, ih hm⟩

/-- The outermost faulty nodes in document order. -/
def outermostFaults (n : Node) : List Node :=
  n.faultPlaces.filterMap n.at?

theorem outermostFaults_eq (n : Node) :
    n.outermostFaults = if n.isFaulty then [n] else n.children.flatMap outermostFaults := by
  rw [outermostFaults, faultPlaces_eq]
  split
  · rfl
  · apply filterMap_belowEach 0
    intro j c σ hc
    simp [at?, hc]

theorem at_of_mem_faultPlaces (h : π ∈ n.faultPlaces) : ∃ m, n.at? π = some m := by
  obtain ⟨⟨m, hm, _⟩, _⟩ := mem_faultPlaces.mp h
  exact ⟨m, hm⟩

theorem outermostFaults_eq_nil : n.outermostFaults = [] ↔ n.hasError = false := by
  rw [outermostFaults, List.filterMap_eq_nil_iff, ← Bool.not_eq_true, hasError_iff_outermost]
  constructor
  · rintro h ⟨π, hπ⟩
    have hmem := mem_faultPlaces.mpr hπ
    obtain ⟨m, hm⟩ := at_of_mem_faultPlaces hmem
    simp [h π hmem] at hm
  · intro h π hmem
    exact absurd ⟨π, mem_faultPlaces.mp hmem⟩ h

end Node

namespace Source
variable {s : Source}

/-- The search of a stack finds the outermost faulty nodes of its nodes, as far as there is room. -/
theorem collectFaults_eq (s : Source) (room : Nat) (stack : List Node) :
    s.collectFaults room stack =
      ((stack.flatMap Node.outermostFaults).take room).map s.faultText := by
  induction room, stack using collectFaults.induct with
  | case1 stack => simp [collectFaults]
  | case2 room => simp [collectFaults]
  | case3 room n rest hfaulty ih =>
    rw [collectFaults, if_pos hfaulty, ih, List.flatMap_cons, Node.outermostFaults_eq, if_pos hfaulty]
    rfl
  | case4 room n rest hfaulty herror ih =>
    rw [collectFaults, if_neg hfaulty, if_pos herror, ih, List.flatMap_cons, List.flatMap_append,
      Node.outermostFaults_eq n, if_neg hfaulty]
  | case5 room n rest hfaulty herror ih =>
    have hnone := Node.outermostFaults_eq_nil.mpr (by simpa using herror)
    rw [collectFaults, if_neg hfaulty, if_neg herror, ih, List.flatMap_cons, hnone, List.nil_append]

/-- The faults of a tree are its outermost ones up to the limit, and there is always one to name. -/
theorem faults_eq (s : Source) :
    s.faults = (s.root.outermostFaults.take maxFaults.toNat).map s.faultText := by
  unfold faults faultsUpTo
  simp only [collectFaults_eq, List.flatMap_singleton]
  cases herror : s.root.hasError with
  | false => simp [Node.outermostFaults_eq_nil.mpr herror]
  | true =>
    cases hlist : s.root.outermostFaults with
    | nil => simp [Node.outermostFaults_eq_nil.mp hlist] at herror
    | cons first rest => rfl

/-- A parse is reported as failed exactly if the tree holds a fault. -/
theorem isSound_eq (s : Source) : s.isSound = !s.root.hasError := by
  unfold isSound
  rw [faults_eq, Bool.eq_iff_iff, Bool.not_eq_true', ← Node.outermostFaults_eq_nil]
  cases s.root.outermostFaults with
  | nil => simp
  | cons first rest => simp [maxFaults]

theorem faultText_ne_unknownFault (s : Source) (n : Node) : s.faultText n ≠ unknownFault := by
  have hself : ∀ t : String, toString t = t := fun _ => rfl
  intro h
  have hlist := congrArg String.toList h
  unfold faultText at hlist
  simp only at hlist
  split at hlist
  · simp [hself, unknownFault] at hlist
  · simp [hself, unknownFault] at hlist

theorem unknownFault_not_mem_faults (s : Source) : unknownFault ∉ s.faults := by
  rw [faults_eq]
  intro hmem
  obtain ⟨n, _, hn⟩ := List.mem_map.mp hmem
  exact s.faultText_ne_unknownFault n hn

/-- Each place of an outermost fault has its own entry, in document order up to the limit. -/
theorem faults_at_places (s : Source) :
    List.Forall₂ (fun π text => ∃ n, s.root.at? π = some n ∧ text = s.faultText n)
      (s.root.faultPlaces.take maxFaults.toNat) s.faults := by
  rw [faults_eq, Node.outermostFaults]
  have hat : ∀ π ∈ s.root.faultPlaces, ∃ n, s.root.at? π = some n := fun π hπ =>
    Node.at_of_mem_faultPlaces hπ
  generalize s.root.faultPlaces = places at hat ⊢
  generalize maxFaults.toNat = room
  induction places generalizing room with
  | nil => simp
  | cons π places ih =>
    obtain ⟨n, hn⟩ := hat π (by simp)
    cases room with
    | zero => simp
    | succ room =>
      rw [List.filterMap_cons_some hn]
      exact .cons ⟨n, hn, rfl⟩ (ih (fun σ hσ => hat σ (by simp [hσ])) room)

end Source

namespace Request
variable {ε : Type} {r : Request} {c : Corpus} {config : Config} {w : Workshop ε} {raw : RawText}
  {view : View} {stages : List Stage}

/-- A text that does not parse is shown with its faults and without links; any other is shown as it
is. -/
theorem resolveText_yields (h : (r.resolveText c config w raw).Yields (view, stages)) :
    ((r.sourceOf w raw).isSound = false ∧
      view = { request := r
               text := RawText.ofChars
                 (raw.normalize ++ Document.diagnosticBlock (r.sourceOf w raw).faults)
               parseError := some (r.sourceOf w raw).faults }) ∨
    (r.sourceOf w raw).isSound = true ∧ view.parseError = none ∧
      view.text = RawText.ofChars raw.normalize := by
  unfold resolveText at h
  simp only at h
  split at h
  · rename_i first rest hfaults
    have hsame : (r.sourceOf w raw).faults = first :: rest := hfaults
    simp only [Inquiry.yields_bind, Inquiry.pure_eq, Inquiry.yields_done, Prod.mk.injEq] at h
    obtain ⟨_, _, hview, _⟩ := h
    refine .inl ⟨?_, ?_⟩
    · rw [Source.isSound, hsame]
      rfl
    · rw [hview, hsame]
      rfl
  · rename_i hfaults
    have hsame : (r.sourceOf w raw).faults = [] := hfaults
    simp only [Inquiry.yields_bind, Inquiry.pure_eq, Inquiry.yields_done, Prod.mk.injEq] at h
    obtain ⟨_, _, hview, _⟩ := h
    refine .inr ⟨?_, ?_⟩
    · rw [Source.isSound, hsame]
      rfl
    · rw [hview]
      exact ⟨rfl, rfl⟩

/-- What a decompiler makes of a class is resolved, and that is the view. -/
theorem run_decompiled {bytes : List UInt8} {outcome : Except (TaskError ε) View × List Stage}
    (hkind : r.transformer.kind = .decompiler) (hbytes : r.classBytes? c = some bytes)
    (hmade : w.transform r.name bytes = .ok (some raw)) (h : (r.run c config w).Yields outcome) :
    ∃ view stages, outcome = (.ok view, stages) ∧
      (r.resolveText c config w raw).Yields (view, stages) := by
  simp only [run, hbytes, hmade, hkind, Inquiry.yields_bind, Inquiry.pure_eq,
    Inquiry.yields_done] at h
  obtain ⟨⟨view, stages⟩, hview, houtcome⟩ := h
  exact ⟨view, stages, houtcome, hview⟩

/-- A parse fails exactly if the tree holds a faulty node. Its faults are then those of the outermost
faulty nodes in document order, one for each and no more than twenty, and they always name a place.
A decompiled text that does not parse is shown without links and with a comment behind it: a line
that says so, then a line for each fault, in which what would close the comment is broken up. One
that parses is shown as it is. -/
theorem faults_degrade_the_view :
    (∀ s : Source,
      (s.isSound = false ↔ ∃ π n, s.root.at? π = some n ∧ n.isFaulty = true) ∧
      (s.isSound = false → s.faults ≠ []) ∧ Source.unknownFault ∉ s.faults ∧
      ∃ places : List Place, places.Pairwise (List.Lex (· < ·)) ∧
        (∀ π, π ∈ places ↔ s.root.OutermostFault π) ∧
        List.Forall₂ (fun π text => ∃ n, s.root.at? π = some n ∧ text = s.faultText n)
          (places.take 20) s.faults) ∧
    ∀ (r : Request) (c answering : Corpus) (config : Config) (w : Workshop ε) (bytes : List UInt8)
      (raw : RawText), r.transformer.kind = .decompiler → r.classBytes? c = some bytes →
      w.transform r.name bytes = .ok (some raw) →
      ∃ view stages, ((r.run c config w).run answering).1 = (.ok view, stages) ∧
        ((r.sourceOf w raw).isSound = false ↔
          view.parseError = some (r.sourceOf w raw).faults ∧ view.links = [] ∧
            view.text = RawText.ofChars (raw.normalize ++
              ("\n\n/*\n * Error: could not parse this file. Hyperlinks will not be inserted.\n".toList ++
              (r.sourceOf w raw).faults.flatMap (fun fault =>
                " * ".toList ++ Text.breakUp fault.toList ++ ['\n']) ++
              " */\n".toList))) ∧
        ((r.sourceOf w raw).isSound = true ↔
          view.parseError = none ∧ view.text = RawText.ofChars raw.normalize) := by
  refine ⟨?_, ?_⟩
  · intro s
    refine ⟨?_, ?_, s.unknownFault_not_mem_faults, ?_⟩
    · rw [s.isSound_eq, Bool.not_eq_false', Node.hasError_iff]
    · intro hfailed hnone
      rw [Source.isSound, hnone] at hfailed
      cases hfailed
    · exact ⟨s.root.faultPlaces, s.root.faultPlaces_sorted, fun π => Node.mem_faultPlaces,
        s.faults_at_places⟩
  · intro r c answering config w bytes raw hkind hbytes hmade
    have hyields := Inquiry.run_yields (r.run c config w) answering
    obtain ⟨view, stages, hresult, hview⟩ := run_decompiled hkind hbytes hmade hyields
    refine ⟨view, stages, hresult, ?_⟩
    rw [← Document.diagnosticBlock_text]
    rcases resolveText_yields hview with ⟨hfailed, rfl⟩ | ⟨hsound, herror, htext⟩
    · simp [hfailed]
    · simp [hsound, herror, htext]

/-- A missing node inside a node that could not be parsed is not reported, one beside it is. -/
theorem faults_degrade_the_view_of_two :
    let own : Archive := { id := "demo.jar", entries := ⟨[("demo/Main.class", [])]⟩ }
    let r : Request := ⟨"demo.jar", "demo/Main", ⟨"plain", .decompiler⟩, none⟩
    let unread := Node.plain "ERROR" 0 1 [.mk ")" "" false true 1 1 []]
    let root := Node.plain "program" 0 2 [.plain "block" 0 1 [unread], .mk ";" "" false true 2 2 []]
    let raw := RawText.ofString "a\r\n"
    let w : Workshop Unit := ⟨fun _ _ => .ok (some raw), fun _ => root, fun _ => false⟩
    let faults := ["syntax error at line 1, column 1: `a`", "missing `;` at line 2, column 1"]
    r.classBytes? ⟨[own]⟩ = some [] ∧ (r.sourceOf w raw).faults = faults ∧
      ∃ view stages, ((r.run ⟨[own]⟩ {} w).run ⟨[own]⟩).1 = (.ok view, stages) ∧
        view.parseError = some faults ∧ view.links = [] ∧
        view.text = RawText.ofString ("a\n\n\n/*\n" ++
          " * Error: could not parse this file. Hyperlinks will not be inserted.\n" ++
          " * syntax error at line 1, column 1: `a`\n" ++
          " * missing `;` at line 2, column 1\n */\n") := by
  intro own r unread root raw w faults
  have hbytes : r.classBytes? ⟨[own]⟩ = some [] := by decide
  have hfaults : (r.sourceOf w raw).faults = faults := by
    rw [Source.faults_eq]
    decide +kernel
  have hfailed : (r.sourceOf w raw).isSound = false := by
    rw [Source.isSound, hfaults]
    rfl
  obtain ⟨view, stages, hrun, hdegraded, _⟩ :=
    faults_degrade_the_view.2 r ⟨[own]⟩ ⟨[own]⟩ {} w [] raw rfl hbytes rfl
  rw [hfaults] at hdegraded
  obtain ⟨herror, hlinks, htext⟩ := hdegraded.mp hfailed
  exact ⟨hbytes, hfaults, view, stages, hrun, herror, hlinks, htext.trans (congrArg RawText.ofChars (by decide +kernel))⟩

end Request
end SourceLinks
