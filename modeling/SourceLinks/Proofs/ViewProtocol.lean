import SourceLinks.Proofs.Answers
import SourceLinks.Proofs.ViewSteps

namespace SourceLinks
variable {ε : Type}

/-- The final check of the task has been made. -/
def TaskState.isChecked : TaskState ε → Bool
  | .running | .computed _ => false
  | .cleared _ | .settled _ => true

/-- How many steps a task has still to take at most. -/
def TaskState.left : TaskState ε → Nat
  | .running => 3
  | .computed _ => 2
  | .cleared _ => 1
  | .settled _ => 0

namespace ViewEvent

def delivery? : ViewEvent ε → Option Nat
  | .delivered i => some i
  | _ => none

/-- The views whose clients were told of them, in the order in which they were told. -/
def deliveries (trace : List (ViewEvent ε)) : List Nat :=
  trace.filterMap delivery?

theorem mem_deliveries {trace : List (ViewEvent ε)} {i : Nat} :
    i ∈ deliveries trace ↔ .delivered i ∈ trace := by
  rw [deliveries, List.mem_filterMap]
  constructor
  · intro hmem
    obtain ⟨e, he, hi⟩ := hmem
    cases e <;> simp_all [delivery?]
  · intro hmem
    exact ⟨_, hmem, rfl⟩

theorem deliveries_snoc (trace : List (ViewEvent ε)) (e : ViewEvent ε) :
    deliveries (trace ++ [e]) = deliveries trace ++ e.delivery?.toList := by
  rw [deliveries, deliveries, List.filterMap_append]
  cases hd : e.delivery? <;> simp [hd]

end ViewEvent

namespace Handle
variable {i : Nat} {e : ViewEvent ε} {h h' : Handle ε}

/-- What the client of a view was told stays as it is. -/
theorem Follows.receipt (hf : Follows i e h h') {receipt : String × Nat}
    (hr : h.receipt? = some receipt) : h'.receipt? = some receipt := by
  rcases hf with hf | hf
  · rw [hf.1, hr]
  · cases hf.2 <;> simp_all [receipt?]

theorem Follows.settled (hf : Follows i e h h') {result : Except (TaskError ε) (Option View)}
    (hr : h.task = .settled result) : h'.task = .settled result := by
  rcases hf with hf | hf
  · rw [hf.1, hr]
  · cases hf.2 <;> simp_all

theorem Follows.isChecked (hf : Follows i e h h') :
    h'.task.isChecked = true ↔ h.task.isChecked = true ∨ e = .checked i := by
  rcases hf with ⟨hsame, hother⟩ | ⟨hsubject, hm⟩
  · have hne : e ≠ .checked i := by
      intro he
      exact hother (he ▸ rfl)
    simp [hsame, hne]
  · cases hm <;> simp_all [TaskState.isChecked, ViewEvent.subject?]

theorem Follows.left (hf : Follows i e h h') (hsubject : e.subject? = some i)
    (hne : e ≠ .cancelled i) : h'.task.left < h.task.left := by
  rcases hf with hf | hf
  · exact absurd hsubject hf.2
  · cases hf.2 <;> simp_all [TaskState.left, ViewEvent.subject?]

/-- A client is told of a view by its delivery and by nothing else. -/
theorem Follows.isSome_receipt (hf : Follows i e h h') :
    h'.receipt?.isSome = true ↔ h.receipt?.isSome = true ∨ e = .delivered i := by
  rcases hf with ⟨hsame, hother⟩ | ⟨hsubject, hm⟩
  · have hne : e ≠ .delivered i := by
      intro he
      exact hother (he ▸ rfl)
    simp [hsame, hne]
  · cases hm <;> simp_all [receipt?, ViewEvent.subject?]

/-- A result is dropped only where the view is closed. -/
theorem Follows.dropped (hf : Follows i e h h') (hnew : h'.task = .settled (.ok none)) :
    h'.closed = true ∨ h.task = .settled (.ok none) := by
  rcases hf with hf | hf
  · exact .inr (hf.1 ▸ hnew)
  · cases hf.2 <;> simp_all

/-- The view is closed and did not pass the final check. -/
structure Doomed (h : Handle ε) : Prop where
  closed : h.closed = true
  held : ∀ view, h.task ≠ .cleared view ∧ h.task ≠ .settled (.ok (some view))

theorem Follows.doomed (hf : Follows i e h h') (hd : h.Doomed) : h'.Doomed := by
  obtain ⟨hclosed, hheld⟩ := hd
  rcases hf with hf | hf
  · exact hf.1 ▸ ⟨hclosed, hheld⟩
  · cases hf.2 <;> constructor <;> simp_all

theorem Doomed.receipt (hd : h.Doomed) : h.receipt? = none := by
  unfold receipt?
  split
  · rename_i view htask
    exact absurd htask (hd.held view).2
  · rfl

/-- The final check of a closed view leaves nothing of its task but an error. -/
theorem Follows.checked_closed (hf : Follows i (.checked i) h h')
    {result : Except (TaskError ε) View} (htask : h.task = .computed result)
    (hclosed : h.closed = true) : h'.task = .settled (result.map fun _ => none) := by
  rcases hf with hf | ⟨-, hm⟩
  · exact absurd rfl hf.2
  · cases hm with
    | failed _ hfailed =>
      rw [htask] at hfailed
      cases hfailed
      rfl
    | dropped _ hdone _ =>
      rw [htask] at hdone
      cases hdone
      rfl
    | cleared _ _ hopen =>
      rw [hclosed] at hopen
      cases hopen

end Handle

namespace Service
variable {s : Service ε} {i : Nat}

/-- What the client of the view with this number was told. -/
def receipt? (s : Service ε) (i : Nat) : Option (String × Nat) :=
  (s.handles[i]?).bind Handle.receipt?

theorem result_eq_some {result : Except (TaskError ε) (Option View)} :
    s.result? i = some result ↔ s.task? i = some (.settled result) := by
  unfold result? task?
  split
  · rename_i hsettled
    rw [hsettled]
    simp
  · rename_i hother
    constructor
    · nofun
    · intro hsettled
      exact absurd hsettled (hother result)

end Service

namespace Traffic
variable {t u v t' : Traffic ε} {e : ViewEvent ε} {i : Nat} {h : Handle ε}
  {trace later : List (ViewEvent ε)}

theorem run_append : t.Run (trace ++ later) v ↔ ∃ u, t.Run trace u ∧ u.Run later v := by
  induction trace generalizing t with
  | nil =>
    constructor
    · intro hrun
      exact ⟨t, .nil, hrun⟩
    · intro hsplit
      obtain ⟨u, hnil, hrun⟩ := hsplit
      cases hnil
      exact hrun
  | cons e trace ih =>
    constructor
    · intro hrun
      cases hrun with
      | cons hstep hrest =>
        obtain ⟨u, hbefore, hafter⟩ := ih.mp hrest
        exact ⟨u, .cons hstep hbefore, hafter⟩
    · intro hsplit
      obtain ⟨u, hbefore, hafter⟩ := hsplit
      cases hbefore with
      | cons hstep hrest => exact .cons hstep (ih.mpr ⟨u, hrest, hafter⟩)

/-- What every event keeps of a handle holds of it after a run. -/
theorem Run.handle {P : Handle ε → Prop} (hrun : t.Run trace v)
    (hkeep : ∀ e ∈ trace, ∀ h h', h.Follows i e h' → P h → P h')
    (hh : t.service.handles[i]? = some h) (hp : P h) :
    ∃ h', v.service.handles[i]? = some h' ∧ P h' := by
  induction hrun generalizing h with
  | nil => exact ⟨h, hh, hp⟩
  | cons hstep hrun ih =>
    obtain ⟨h', hh', hfollows⟩ := hstep.effect.after hh
    refine ih (fun e he => hkeep e (List.mem_cons_of_mem _ he)) hh' ?_
    exact hkeep _ List.mem_cons_self h h' hfollows hp

theorem Effect.subject (heff : t.Effect e t') (hsubject : e.subject? = some i) :
    ∃ h, t.service.handles[i]? = some h := by
  cases heff with
  | moved hsame hh hmoves hhandles hregistered hdelivered =>
    rw [hsame] at hsubject
    cases hsubject
    exact ⟨_, hh⟩
  | _ => cases hsubject

theorem Effect.opened_registered {request : Request} {client : String}
    {transform : String → List UInt8 → Except ε (Option RawText)}
    (heff : t.Effect (.opened request client transform i) t') :
    (request.key, i) ∈ t'.service.registered := by
  cases heff with
  | shared hreg => exact Consistent.mem_of_lookup hreg
  | started hreg hhandles hregistered hdelivered => simp [hregistered]
  | moved hsubject => cases hsubject

/-- Clients are told of a view by its delivery, and never twice. -/
theorem Effect.delivered (heff : t.Effect e t') :
    (e.delivery? = none ∧ t'.service.delivered = t.service.delivered) ∨
    ∃ i receipt, e = .delivered i ∧ t.service.receipt? i = none ∧
      t'.service.receipt? i = some receipt ∧
      t'.service.delivered = t.service.delivered ++ [receipt] := by
  cases heff with
  | shared hreg => exact .inl ⟨rfl, rfl⟩
  | started hreg hhandles hregistered hdelivered => exact .inl ⟨rfl, hdelivered⟩
  | forgotten hi => exact .inl ⟨rfl, rfl⟩
  | @moved e i h h' s hsubject hh hmoves hhandles hregistered hdelivered =>
    cases hmoves with
    | delivered j htask =>
      cases hsubject
      have hi := (List.getElem?_eq_some_iff.mp hh).1
      refine .inr ⟨i, _, rfl, ?_, ?_, hdelivered⟩
      · simp [Service.receipt?, hh, Handle.receipt?, htask]
      · simp [Service.receipt?, hhandles, hi, Handle.receipt?]
    | _ => exact .inl ⟨rfl, by simpa [ViewEvent.news] using hdelivered⟩

theorem Effect.receipt (heff : t.Effect e t') {receipt : String × Nat}
    (hr : t.service.receipt? i = some receipt) : t'.service.receipt? i = some receipt := by
  obtain ⟨h, hh, hreceipt⟩ := Option.bind_eq_some_iff.mp hr
  obtain ⟨h', hh', hfollows⟩ := heff.after hh
  exact Option.bind_eq_some_iff.mpr ⟨h', hh', hfollows.receipt hreceipt⟩

/-- One event puts a mark on a handle that none takes away: a handle has it exactly if it had it
before or this is the event. -/
theorem Effect.marked {P : Handle ε → Prop} {mark : ViewEvent ε} (heff : t.Effect e t')
    (hsubject : mark.subject? = some i)
    (hmark : ∀ h h', h.Follows i e h' → (P h' ↔ P h ∨ e = mark))
    (hfresh : ∀ h, h.closed = false → h.task = .running → ¬ P h) :
    (∃ h', t'.service.handles[i]? = some h' ∧ P h') ↔
      (∃ h, t.service.handles[i]? = some h ∧ P h) ∨ e = mark := by
  constructor
  · intro hnow
    obtain ⟨h', hh', hp⟩ := hnow
    rcases heff.before hh' with ⟨h, hh, hfollows⟩ | hstarts
    · exact ((hmark h h' hfollows).mp hp).imp_left fun hp => ⟨h, hh, hp⟩
    · exact absurd hp (hfresh h' hstarts.isOpen hstarts.running)
  · intro hbefore
    have hthere : ∃ h, t.service.handles[i]? = some h ∧ (P h ∨ e = mark) := by
      rcases hbefore with ⟨h, hh, hp⟩ | he
      · exact ⟨h, hh, .inl hp⟩
      · subst he
        obtain ⟨h, hh⟩ := heff.subject hsubject
        exact ⟨h, hh, .inr rfl⟩
    obtain ⟨h, hh, hp⟩ := hthere
    obtain ⟨h', hh', hfollows⟩ := heff.after hh
    exact ⟨h', hh', (hmark h h' hfollows).mpr hp⟩

/-- What the events so far say of the handles and of what the clients were told. -/
structure Accounted (trace : List (ViewEvent ε)) (t : Traffic ε) : Prop where
  told : t.service.delivered.map some = (ViewEvent.deliveries trace).map t.service.receipt?
  once : (ViewEvent.deliveries trace).Nodup
  delivered : ∀ i, .delivered i ∈ trace ↔
    ∃ h, t.service.handles[i]? = some h ∧ h.receipt?.isSome = true
  closed : ∀ i, .cancelled i ∈ trace ↔ ∃ h, t.service.handles[i]? = some h ∧ h.closed = true
  checked : ∀ i, .checked i ∈ trace ↔
    ∃ h, t.service.handles[i]? = some h ∧ h.task.isChecked = true
  dropped : ∀ (i : Nat) (h : Handle ε), t.service.handles[i]? = some h →
    h.task = .settled (.ok none) → h.closed = true

namespace Accounted

theorem start {corpus : Corpus} {config : Config} {parse : Document → Node} {s : Service ε}
    (hstart : Service.start corpus config parse = .ok s) : Accounted [] { service := s } := by
  unfold Service.start at hstart
  split at hstart
  · cases hstart
  · cases hstart
    constructor <;> simp [ViewEvent.deliveries]

theorem receipt_of_mem (ha : Accounted trace t) (hi : i ∈ ViewEvent.deliveries trace) :
    ∃ receipt, t.service.receipt? i = some receipt := by
  obtain ⟨h, hh, hsome⟩ := (ha.delivered i).mp (ViewEvent.mem_deliveries.mp hi)
  obtain ⟨receipt, hreceipt⟩ := Option.isSome_iff_exists.mp hsome
  exact ⟨receipt, Option.bind_eq_some_iff.mpr ⟨h, hh, hreceipt⟩⟩

theorem step_told (ha : Accounted trace t) (heff : t.Effect e t') :
    t'.service.delivered.map some =
      (ViewEvent.deliveries (trace ++ [e])).map t'.service.receipt? := by
  have hold : (ViewEvent.deliveries trace).map t'.service.receipt? =
      t.service.delivered.map some := by
    rw [ha.told]
    refine List.map_congr_left fun i hi => ?_
    obtain ⟨receipt, hreceipt⟩ := ha.receipt_of_mem hi
    rw [hreceipt, heff.receipt hreceipt]
  rw [ViewEvent.deliveries_snoc, List.map_append, hold]
  rcases heff.delivered with ⟨hnone, hsame⟩ | ⟨i, receipt, rfl, -, hreceipt, hnew⟩
  · simp [hnone, hsame]
  · simp [ViewEvent.delivery?, hreceipt, hnew]

theorem step_once (ha : Accounted trace t) (heff : t.Effect e t') :
    (ViewEvent.deliveries (trace ++ [e])).Nodup := by
  rw [ViewEvent.deliveries_snoc]
  rcases heff.delivered with ⟨hnone, -⟩ | ⟨i, receipt, rfl, hbefore, -⟩
  · simpa [hnone] using ha.once
  · rw [ViewEvent.delivery?, Option.toList_some, ← List.concat_eq_append, List.nodup_concat]
    refine ⟨?_, ha.once⟩
    intro hi
    obtain ⟨receipt, hreceipt⟩ := ha.receipt_of_mem hi
    rw [hbefore] at hreceipt
    cases hreceipt

theorem step (ha : Accounted trace t) (hstep : t.Step e t') : Accounted (trace ++ [e]) t' := by
  have heff := hstep.effect
  refine ⟨ha.step_told heff, ha.step_once heff, ?_, ?_, ?_, ?_⟩
  · intro i
    rw [heff.marked rfl (fun h h' hfollows => hfollows.isSome_receipt)
      (by simp_all [Handle.receipt?]), ← ha.delivered]
    simp [eq_comm]
  · intro i
    rw [heff.marked rfl (fun h h' hfollows => hfollows.closed) (by simp_all), ← ha.closed]
    simp [eq_comm]
  · intro i
    rw [heff.marked rfl (fun h h' hfollows => hfollows.isChecked)
      (by simp_all [TaskState.isChecked]), ← ha.checked]
    simp [eq_comm]
  · intro i h' hh' hdropped
    rcases heff.before hh' with ⟨h, hh, hfollows⟩ | hstarts
    · rcases hfollows.dropped hdropped with hclosed | hold
      · exact hclosed
      · exact hfollows.closed.mpr (.inl (ha.dropped i h hh hold))
    · rw [hstarts.running] at hdropped
      cases hdropped

theorem run (ha : Accounted trace t) (hrun : t.Run later v) : Accounted (trace ++ later) v := by
  induction hrun generalizing trace with
  | nil => rwa [List.append_nil]
  | @cons t u v e later hstep hrun ih =>
    have hrest := ih (ha.step hstep)
    rwa [List.append_assoc] at hrest

/-- A view that is closed before the final check of its task does not pass it. -/
theorem doomed (ha : Accounted trace t) (hclosed : .cancelled i ∈ trace)
    (hunchecked : .checked i ∉ trace) : ∃ h, t.service.handles[i]? = some h ∧ h.Doomed := by
  obtain ⟨h, hh, hclosed⟩ := (ha.closed i).mp hclosed
  have hpending : ¬ h.task.isChecked = true := by
    intro hchecked
    exact hunchecked ((ha.checked i).mpr ⟨h, hh, hchecked⟩)
  refine ⟨h, hh, hclosed, ?_⟩
  intro view
  constructor
  all_goals
    intro htask
    simp [htask, TaskState.isChecked] at hpending

theorem not_delivered (ha : Accounted trace t) (hh : t.service.handles[i]? = some h)
    (hreceipt : h.receipt? = none) : i ∉ ViewEvent.deliveries trace := by
  rw [ViewEvent.mem_deliveries, ha.delivered]
  intro hdelivered
  obtain ⟨g, hg, hsome⟩ := hdelivered
  rw [hh] at hg
  cases hg
  simp [hreceipt] at hsome

/-- What a view that is not closed has come to is an error, or was delivered. -/
theorem result_of_open (ha : Accounted trace t) (hh : t.service.handles[i]? = some h)
    (hopen : h.closed ≠ true) {result : Except (TaskError ε) (Option View)}
    (hresult : t.service.result? i = some result) :
    (∃ error, result = .error error) ∨
      ∃ view, result = .ok (some view) ∧ i ∈ ViewEvent.deliveries trace := by
  obtain ⟨g, hg, htask⟩ := Service.task_eq_some.mp (Service.result_eq_some.mp hresult)
  rw [hh] at hg
  cases hg
  match result with
  | .error error => exact .inl ⟨error, rfl⟩
  | .ok none => exact absurd (ha.dropped i h hh htask) hopen
  | .ok (some view) =>
    refine .inr ⟨view, rfl, ViewEvent.mem_deliveries.mpr ((ha.delivered i).mpr ⟨h, hh, ?_⟩)⟩
    simp [Handle.receipt?, htask]

theorem no_result (ha : Accounted trace t) (hunchecked : .checked i ∉ trace) :
    t.service.result? i = none := by
  rw [Option.eq_none_iff_forall_ne_some]
  intro result hresult
  obtain ⟨h, hh, htask⟩ := Service.task_eq_some.mp (Service.result_eq_some.mp hresult)
  exact hunchecked ((ha.checked i).mpr ⟨h, hh, by rw [htask]; rfl⟩)

end Accounted

theorem Run.result {result : Except (TaskError ε) (Option View)} (hrun : t.Run trace v)
    (hresult : t.service.result? i = some result) : v.service.result? i = some result := by
  rw [Service.result_eq_some, Service.task_eq_some] at hresult ⊢
  obtain ⟨h, hh, htask⟩ := hresult
  exact hrun.handle (fun e he h h' hfollows hsettled => hfollows.settled hsettled) hh htask

/-- A view stays open until a close of it begins. -/
theorem Run.stays_open (hrun : t.Run trace v) (huncancelled : .cancelled i ∉ trace)
    (hh : t.service.handles[i]? = some h) (hopen : h.closed ≠ true) :
    ∃ h', v.service.handles[i]? = some h' ∧ h'.closed ≠ true := by
  refine hrun.handle ?_ hh hopen
  intro e he h h' hfollows hopen hclosed
  rcases hfollows.closed.mp hclosed with hwas | hcancelled
  · exact hopen hwas
  · exact huncancelled (hcancelled ▸ he)

theorem Step.checked_closed (hstep : t.Step (.checked i) t') (hh : t.service.handles[i]? = some h)
    (hclosed : h.closed = true) : ∃ result, t.service.task? i = some (.computed result) ∧
      t'.service.result? i = some (result.map fun _ => none) := by
  obtain ⟨h', hh', hfollows⟩ := hstep.effect.after hh
  cases hstep with
  | @checked i result hcomputed =>
    obtain ⟨g, hg, htask⟩ := Service.task_eq_some.mp hcomputed
    rw [hh] at hg
    cases hg
    refine ⟨result, hcomputed, Service.result_eq_some.mpr (Service.task_eq_some.mpr ⟨h', hh', ?_⟩)⟩
    exact hfollows.checked_closed htask hclosed

/-- The task of a view can come to its end by steps of its own. -/
def Completes (t : Traffic ε) (i : Nat) : Prop :=
  ∃ rest v, t.Run rest v ∧ (∀ e ∈ rest, e.subject? = some i ∧ e ≠ .cancelled i) ∧
    (v.service.result? i).isSome = true

theorem own_step (hh : t.service.handles[i]? = some h) (hleft : h.task.left ≠ 0) :
    ∃ e u, t.Step e u ∧ e.subject? = some i ∧ e ≠ .cancelled i := by
  cases htask : h.task with
  | running =>
    have hstep := Step.finished (fun _ => false) (Service.task_eq_some.mpr ⟨h, hh, htask⟩)
    exact ⟨_, _, hstep, rfl, nofun⟩
  | computed result =>
    have hstep := Step.checked (Service.task_eq_some.mpr ⟨h, hh, htask⟩)
    exact ⟨_, _, hstep, rfl, nofun⟩
  | cleared view =>
    have hstep := Step.delivered (Service.task_eq_some.mpr ⟨h, hh, htask⟩)
    exact ⟨_, _, hstep, rfl, nofun⟩
  | settled result =>
    rw [htask] at hleft
    exact absurd rfl hleft

theorem completes (hh : t.service.handles[i]? = some h) : t.Completes i := by
  generalize hn : h.task.left = n
  induction n using Nat.strongRecOn generalizing t h with
  | ind n ih =>
    by_cases hleft : h.task.left = 0
    · cases htask : h.task with
      | settled result =>
        have hresult := Service.result_eq_some.mpr (Service.task_eq_some.mpr ⟨h, hh, htask⟩)
        exact ⟨[], t, .nil, nofun, by rw [hresult]; rfl⟩
      | _ => simp [htask, TaskState.left] at hleft
    · obtain ⟨e, u, hstep, hsubject, hne⟩ := own_step hh hleft
      obtain ⟨h', hh', hfollows⟩ := hstep.effect.after hh
      have hless := hfollows.left hsubject hne
      obtain ⟨rest, v, hrun, hown, hresult⟩ := ih _ (hn ▸ hless) hh' rfl
      refine ⟨e :: rest, v, .cons hstep hrun, ?_, hresult⟩
      intro d hd
      rcases List.mem_cons.mp hd with rfl | hd
      · exact ⟨hsubject, hne⟩
      · exact hown d hd

/-- What clients can rely on, whatever takes turns with what. -/
structure Safe (first : Traffic ε) (trace : List (ViewEvent ε)) (t : Traffic ε) : Prop where
  /-- One view of a key at most is not closed. -/
  single : ∀ (i j : Nat) (g h : Handle ε), t.service.handles[i]? = some g →
    t.service.handles[j]? = some h → g.request.key = h.request.key → g.closed = false →
    h.closed = false → i = j
  /-- A view that is not closed is registered. -/
  registered : ∀ (i : Nat) (h : Handle ε), t.service.handles[i]? = some h → h.closed = false →
    t.service.registered.lookup h.request.key = some i
  /-- Nothing but the end of a close of its own takes a view from the registered ones. -/
  undisturbed : ∀ e t', t.Step e t' → ∀ key i, t.service.registered.lookup key = some i →
    e ≠ .forgotten i → t'.service.registered.lookup key = some i
  /-- The clients were told of the delivered views, in their order and of each of them once. -/
  once : (ViewEvent.deliveries trace).Nodup ∧
    t.service.delivered.map some = (ViewEvent.deliveries trace).map t.service.receipt?
  /-- A view that was closed before the final check of its task is never delivered. It has no result
  until that check, and then what its task came to without the view. -/
  dropped : ∀ i before after, trace = before ++ after → .cancelled i ∈ before →
    .checked i ∉ before → i ∉ ViewEvent.deliveries trace ∧
      (.checked i ∉ after → t.service.result? i = none) ∧
      ∀ middle rest, after = middle ++ .checked i :: rest →
        ∃ u result, first.Run (before ++ middle) u ∧ u.service.task? i = some (.computed result) ∧
          t.service.result? i = some (result.map fun _ => none)

section
variable {corpus : Corpus} {config : Config} {parse : Document → Node} {s : Service ε}

theorem Run.accounted (hstart : Service.start corpus config parse = .ok s)
    (hrun : Run { service := s } trace t) : Accounted trace t :=
  (Accounted.start hstart).run hrun

theorem Run.dropped (hstart : Service.start corpus config parse = .ok s)
    {before after : List (ViewEvent ε)} (hrun : Run { service := s } (before ++ after) t)
    (hclosed : .cancelled i ∈ before) (hunchecked : .checked i ∉ before) :
    i ∉ ViewEvent.deliveries (before ++ after) ∧
    (.checked i ∉ after → t.service.result? i = none) ∧
    ∀ middle rest, after = middle ++ .checked i :: rest →
      ∃ u result, Run { service := s } (before ++ middle) u ∧
        u.service.task? i = some (.computed result) ∧
        t.service.result? i = some (result.map fun _ => none) := by
  have ha := hrun.accounted hstart
  refine ⟨?_, ?_, ?_⟩
  · obtain ⟨u, hbefore, hafter⟩ := run_append.mp hrun
    obtain ⟨h, hh, hdoomed⟩ := (hbefore.accounted hstart).doomed hclosed hunchecked
    obtain ⟨h', hh', hdoomed'⟩ :=
      hafter.handle (fun e he h h' hfollows => hfollows.doomed) hh hdoomed
    exact ha.not_delivered hh' hdoomed'.receipt
  · intro hlater
    exact ha.no_result (by simp [hunchecked, hlater])
  · intro middle rest hsplit
    rw [hsplit, ← List.append_assoc] at hrun
    obtain ⟨u, hbefore, hafter⟩ := run_append.mp hrun
    have hcancelled := List.mem_append_left middle hclosed
    obtain ⟨h, hh, hclosed⟩ := ((hbefore.accounted hstart).closed i).mp hcancelled
    cases hafter with
    | cons hstep hrest =>
      obtain ⟨result, hcomputed, hresult⟩ := hstep.checked_closed hh hclosed
      exact ⟨u, result, hbefore, hcomputed, hrest.result hresult⟩

/-- Every run is safe. -/
theorem views_are_safe (hstart : Service.start corpus config parse = .ok s)
    (hrun : Run { service := s } trace t) : Safe { service := s } trace t := by
  have hc := (Consistent.start hstart).run hrun
  have ha := hrun.accounted hstart
  refine ⟨?_, ?_, ?_, ⟨ha.once, ha.told⟩, ?_⟩
  · intro i j g h hg hh hkey hgopen hhopen
    have hi := hc.lookup_iff.mpr (hc.kept i g hg hgopen)
    have hj := hc.lookup_iff.mpr (hc.kept j h hh hhopen)
    rw [hkey, hj] at hi
    exact (Option.some.inj hi).symm
  · intro i h hh hopen
    exact hc.lookup_iff.mpr (hc.kept i h hh hopen)
  · intro e t' hstep key i hlookup hne
    rw [hc.lookup_iff] at hlookup
    rw [(hc.step hstep).lookup_iff, hstep.effect.mem_registered]
    exact .inl ⟨hlookup, hne⟩
  · intro i before after hsplit hclosed hunchecked
    subst hsplit
    exact hrun.dropped hstart hclosed hunchecked

/-- A service without views, and an empty listing of one of its classes. -/
def counter : Traffic Empty :=
  { service := { corpus := ⟨[Archive.pair]⟩, config := {}, parse := fun _ => default } }

def listing : Request :=
  { archive := "demo.jar", name := "demo/Main", transformer := ⟨"lister", .disassembler⟩ }

def opening (client : String) (i : Nat) : ViewEvent Empty :=
  .opened listing client (fun _ _ => .ok (some [])) i

/-- A client shares a view during its close and opens another one after it. The first view is closed
once more, with the second one open. -/
def reopening : List (ViewEvent Empty) := [
  opening "first" 0, .cancelled 0, opening "second" 0, .forgotten 0, opening "second" 1,
  .cancelled 0, .finished 0 fun _ => true, .forgotten 0, .checked 0,
  .finished 1 fun _ => false, .checked 1, .delivered 1]

theorem views_are_safe_when_reopened :
    ∃ t, Run counter reopening t ∧ Safe counter reopening t ∧
      t.service.delivered = [("second", 0)] ∧ t.service.result? 0 = some (.ok none) := by
  have hrun : ∃ t, Run counter reopening t ∧ t.service.delivered = [("second", 0)] ∧
      t.service.result? 0 = some (.ok none) :=
    ⟨_, .cons (.opened rfl) <| .cons (.cancelled (by decide)) <| .cons (.opened rfl) <|
      .cons (.forgotten (by decide)) <| .cons (.opened rfl) <| .cons (.cancelled (by decide)) <|
      .cons (.finished _ rfl) <| .cons (.forgotten (by decide)) <| .cons (.checked rfl) <|
      .cons (.finished _ rfl) <| .cons (.checked rfl) <| .cons (.delivered rfl) .nil, rfl, rfl⟩
  obtain ⟨t, hrun, hdelivered, hresult⟩ := hrun
  have hstart : Service.start ⟨[Archive.pair]⟩ {} (fun _ => default) = .ok counter.service := rfl
  exact ⟨t, hrun, views_are_safe hstart hrun, hdelivered, hresult⟩

/-- The handle that a client is given has the key it asked for. It is closed exactly if a close of it
has begun and not ended, and then its view is not delivered any more unless its task is past the final
check. If it is not closed, its task can always come to its end, and has come to an error or to a view
that was delivered if it has, until a close begins. -/
theorem opened_view_is_delivered_unless_closing (hstart : Service.start corpus config parse = .ok s)
    (hrun : Run { service := s } trace t) {request : Request} {client : String}
    {transform : String → List UInt8 → Except ε (Option RawText)}
    (hstep : t.Step (.opened request client transform i) t') :
    ∃ h, t'.service.handles[i]? = some h ∧ h.request.key = request.key ∧
      (h.closed = true ↔ i ∈ t.closing) ∧
      ∀ later v, t'.Run later v →
        (i ∈ t.closing → .checked i ∉ trace →
          i ∉ ViewEvent.deliveries (trace ++ .opened request client transform i :: later)) ∧
        (i ∉ t.closing → .cancelled i ∉ later →
          v.Completes i ∧ ∀ result, v.service.result? i = some result →
            (∃ error, result = .error error) ∨ ∃ view, result = .ok (some view) ∧
              i ∈ ViewEvent.deliveries (trace ++ .opened request client transform i :: later)) := by
  have hc := (Consistent.start hstart).run hrun
  have hclosing : t'.closing = t.closing := by
    cases hstep
    rfl
  obtain ⟨h, hh, hkey⟩ := (hc.step hstep).named request.key i hstep.effect.opened_registered
  have hclosed : h.closed = true ↔ i ∈ t.closing := by
    rw [← hclosing]
    constructor
    · intro hclosed
      exact (hc.step hstep).leaving i h hh hclosed (hkey ▸ hstep.effect.opened_registered)
    · intro hleaving
      obtain ⟨g, hg, hclosed⟩ := (hc.step hstep).closing i hleaving
      rw [hh] at hg
      cases hg
      exact hclosed
  refine ⟨h, hh, hkey, hclosed, ?_⟩
  intro later v hlater
  have hwhole : Run { service := s } (trace ++ .opened request client transform i :: later) v :=
    run_append.mpr ⟨t, hrun, .cons hstep hlater⟩
  constructor
  · intro hleaving hunchecked
    have hcancelled := ((hrun.accounted hstart).closed i).mpr (hc.closing i hleaving)
    exact (hwhole.dropped hstart hcancelled hunchecked).1
  · intro hstaying huncancelled
    have hopen : h.closed ≠ true := mt hclosed.mp hstaying
    obtain ⟨g, hg, hgopen⟩ := hlater.stays_open huncancelled hh hopen
    refine ⟨completes hg, ?_⟩
    intro result hresult
    exact (hwhole.accounted hstart).result_of_open hg hgopen hresult

theorem opened_view_is_delivered_unless_closing_again :
    ∃ t t', Run counter [opening "first" 0, .cancelled 0, .forgotten 0] t ∧
      t.Step (opening "second" 1) t' ∧ ∃ h, t'.service.handles[1]? = some h ∧
        h.request.key = listing.key ∧ (h.closed = true ↔ 1 ∈ t.closing) ∧ 1 ∉ t.closing ∧
        ∀ later v, t'.Run later v → .cancelled 1 ∉ later → v.Completes 1 := by
  have hrun : ∃ t t', Run counter [opening "first" 0, .cancelled 0, .forgotten 0] t ∧
      t.Step (opening "second" 1) t' ∧ 1 ∉ t.closing :=
    ⟨_, _, .cons (.opened rfl) <| .cons (.cancelled (by decide)) <|
      .cons (.forgotten (by decide)) .nil, .opened rfl, by decide⟩
  obtain ⟨t, t', hrun, hstep, hstaying⟩ := hrun
  have hstart : Service.start ⟨[Archive.pair]⟩ {} (fun _ => default) = .ok counter.service := rfl
  obtain ⟨h, hh, hkey, hclosed, hlater⟩ :=
    opened_view_is_delivered_unless_closing hstart hrun hstep
  exact ⟨t, t', hrun, hstep, h, hh, hkey, hclosed, hstaying, fun later v hrun huncancelled =>
    ((hlater later v hrun).2 hstaying huncancelled).1⟩

/-- A client that asks for a view between the two halves of its close is given the closed handle; the
view has no result and is not delivered, though nobody closes it again. -/
theorem closed_view_is_handed_out :
    ∃ t t' v, Run counter [opening "first" 0, .cancelled 0] t ∧ t.Step (opening "second" 0) t' ∧
      (∃ h, t'.service.handles[0]? = some h ∧ h.closed = true) ∧
      t'.Run [.forgotten 0, .finished 0 fun _ => false, .checked 0] v ∧
      v.service.result? 0 = some (.ok none) ∧ v.service.delivered = [] :=
  ⟨_, _, _, .cons (.opened rfl) <| .cons (.cancelled (by decide)) .nil, .opened rfl, ⟨_, rfl, rfl⟩,
    .cons (.forgotten (by decide)) <| .cons (.finished _ rfl) <| .cons (.checked rfl) .nil, rfl, rfl⟩

end
end Traffic
end SourceLinks
