import Mathlib.Data.List.Nodup
import SourceLinks.Service

namespace SourceLinks
variable {ε : Type}

/-- What happens to the views of a service in one go. -/
inductive ViewEvent (ε : Type) where
  /-- A client asks for a view and is given this handle. -/
  | opened (request : Request) (client : String)
      (transform : String → List UInt8 → Except ε (Option RawText)) (i : Nat)
  /-- A close begins: the task of the view is told that nobody waits for it. -/
  | cancelled (i : Nat)
  /-- A close ends: the view is taken from the open ones. -/
  | forgotten (i : Nat)
  /-- The task has done its work, with these answers to its cancellation checks. -/
  | finished (i : Nat) (answers : Nat → Bool)
  | checked (i : Nat)
  | delivered (i : Nat)

/-- A service, and the views of which a close has begun and not ended, one entry for each such close. -/
structure Traffic (ε : Type) where
  service : Service ε
  closing : List Nat := []

/-- How far the task of a view has come. -/
def Service.task? (s : Service ε) (i : Nat) : Option (TaskState ε) :=
  (s.handles[i]?).map Handle.task

namespace Traffic

/-- Any number of clients and tasks take turns. A client may close any view that there is, as often as
it likes, and another event may come between the two halves of a close. -/
inductive Step (t : Traffic ε) : ViewEvent ε → Traffic ε → Prop
  | opened {request : Request} {client : String}
      {transform : String → List UInt8 → Except ε (Option RawText)} {i : Nat} {s : Service ε}
      (hopen : t.service.openView { request, client, transform } = .ok (i, s)) :
      Step t (.opened request client transform i) { t with service := s }
  | cancelled {i : Nat} (hi : i < t.service.handles.length) :
      Step t (.cancelled i) { service := t.service.cancel i, closing := i :: t.closing }
  | forgotten {i : Nat} (hi : i ∈ t.closing) :
      Step t (.forgotten i) { service := t.service.forget i, closing := t.closing.erase i }
  | finished {i : Nat} (answers : Nat → Bool) (htask : t.service.task? i = some .running) :
      Step t (.finished i answers) { t with service := t.service.finish i answers }
  | checked {i : Nat} {result : Except (TaskError ε) View}
      (htask : t.service.task? i = some (.computed result)) :
      Step t (.checked i) { t with service := t.service.check i }
  | delivered {i : Nat} {view : View} (htask : t.service.task? i = some (.cleared view)) :
      Step t (.delivered i) { t with service := t.service.deliver i }

/-- The events of a run, the first one first. -/
inductive Run : Traffic ε → List (ViewEvent ε) → Traffic ε → Prop
  | nil {t : Traffic ε} : Run t [] t
  | cons {t u v : Traffic ε} {e : ViewEvent ε} {trace : List (ViewEvent ε)} (hstep : t.Step e u)
      (hrun : Run u trace v) : Run t (e :: trace) v

end Traffic

/-- What the client of a view was told, if it was. -/
def Handle.receipt? (h : Handle ε) : Option (String × Nat) :=
  match h.task with
  | .settled (.ok (some view)) => some (h.client, view.links.length)
  | _ => none

namespace ViewEvent

/-- The view whose handle an event changes. -/
def subject? : ViewEvent ε → Option Nat
  | .cancelled i | .finished i _ | .checked i | .delivered i => some i
  | .opened .. | .forgotten _ => none

/-- The closes that begin with an event. -/
def begun : ViewEvent ε → List Nat
  | .cancelled i => [i]
  | _ => []

/-- What an event tells the client of a view that it brings so far. -/
def news (h : Handle ε) : ViewEvent ε → List (String × Nat)
  | .delivered _ => h.receipt?.toList
  | _ => []

end ViewEvent

/-- What an event makes of the handle that it changes. -/
inductive Handle.Moves (h : Handle ε) : ViewEvent ε → Handle ε → Prop
  | cancelled (i : Nat) : Moves h (.cancelled i) { h with closed := true }
  | finished (i : Nat) (answers : Nat → Bool) (result : Except (TaskError ε) View)
      (htask : h.task = .running) : Moves h (.finished i answers) { h with task := .computed result }
  | failed (i : Nat) {error : TaskError ε} (htask : h.task = .computed (.error error)) :
      Moves h (.checked i) { h with task := .settled (.error error) }
  | dropped (i : Nat) {view : View} (htask : h.task = .computed (.ok view)) (hclosed : h.closed = true) :
      Moves h (.checked i) { h with task := .settled (.ok none) }
  | cleared (i : Nat) {view : View} (htask : h.task = .computed (.ok view))
      (hclosed : h.closed = false) : Moves h (.checked i) { h with task := .cleared view }
  | delivered (i : Nat) {view : View} (htask : h.task = .cleared view) :
      Moves h (.delivered i) { h with task := .settled (.ok (some view)) }

namespace Handle
variable {h h' : Handle ε} {e : ViewEvent ε}

theorem Moves.request (hm : h.Moves e h') : h'.request = h.request := by
  cases hm <;> rfl

/-- What an event makes of the handle with this number. -/
def Follows (i : Nat) (e : ViewEvent ε) (h h' : Handle ε) : Prop :=
  (h' = h ∧ e.subject? ≠ some i) ∨ (e.subject? = some i ∧ h.Moves e h')

theorem Follows.request {i : Nat} (hf : Follows i e h h') : h'.request = h.request := by
  rcases hf with hf | hf
  · rw [hf.1]
  · exact hf.2.request

/-- Nothing but the begin of a close closes a view, and nothing opens it again. -/
theorem Follows.closed {i : Nat} (hf : Follows i e h h') :
    h'.closed = true ↔ h.closed = true ∨ e = .cancelled i := by
  rcases hf with ⟨hsame, hother⟩ | ⟨hsubject, hm⟩
  · have hne : e ≠ .cancelled i := by
      intro he
      exact hother (he ▸ rfl)
    simp [hsame, hne]
  · cases hm <;> simp_all [ViewEvent.subject?]

end Handle

namespace Service
variable {s : Service ε} {i : Nat} {h : Handle ε}

theorem task_eq_some {task : TaskState ε} :
    s.task? i = some task ↔ ∃ h, s.handles[i]? = some h ∧ h.task = task :=
  Option.map_eq_some_iff

theorem modify_handles (hh : s.handles[i]? = some h) (f : Handle ε → Handle ε) :
    s.handles.modify i f = s.handles.set i (f h) := by
  rw [List.modify_eq_set_getElem?, hh]
  rfl

/-- What the work of a view comes to. -/
def worked (s : Service ε) (h : Handle ε) (answers : Nat → Bool) : Except (TaskError ε) View :=
  ((h.request.run s.corpus s.config
    { transform := h.transform, parse := s.parse, cancelled := answers }).run s.corpus).1.1

theorem finish_eq (hh : s.handles[i]? = some h) (htask : h.task = .running) (answers : Nat → Bool) :
    ∃ corpus, s.finish i answers =
      { s with corpus }.update i fun g => { g with task := .computed (s.worked h answers) } := by
  simp only [finish, hh, htask, worked]
  exact ⟨_, rfl⟩

theorem deliver_eq {view : View} (hh : s.handles[i]? = some h) (htask : h.task = .cleared view) :
    s.deliver i = { s with delivered := s.delivered ++ [(h.client, view.links.length)] }.update i
      fun g => { g with task := .settled (.ok (some view)) } := by
  simp only [deliver, hh, htask]

end Service

namespace Traffic
variable {t t' : Traffic ε} {e : ViewEvent ε}

/-- All that a step can do. -/
inductive Effect (t : Traffic ε) : ViewEvent ε → Traffic ε → Prop
  /-- The view that is open already is shared. -/
  | shared {request : Request} {client : String}
      {transform : String → List UInt8 → Except ε (Option RawText)} {i : Nat}
      (hreg : t.service.registered.lookup request.key = some i) :
      Effect t (.opened request client transform i) t
  | started {request : Request} {client : String}
      {transform : String → List UInt8 → Except ε (Option RawText)} {s : Service ε}
      (hreg : t.service.registered.lookup request.key = none)
      (hhandles : s.handles = t.service.handles ++ [({ request, client, transform } : Handle ε)])
      (hregistered :
        s.registered = t.service.registered ++ [(request.key, t.service.handles.length)])
      (hdelivered : s.delivered = t.service.delivered) :
      Effect t (.opened request client transform t.service.handles.length) { t with service := s }
  | forgotten {i : Nat} (hi : i ∈ t.closing) :
      Effect t (.forgotten i) { service := t.service.forget i, closing := t.closing.erase i }
  | moved {e : ViewEvent ε} {i : Nat} {h h' : Handle ε} {s : Service ε} (hsubject : e.subject? = some i)
      (hh : t.service.handles[i]? = some h) (hmoves : h.Moves e h')
      (hhandles : s.handles = t.service.handles.set i h')
      (hregistered : s.registered = t.service.registered)
      (hdelivered : s.delivered = t.service.delivered ++ e.news h') :
      Effect t e { service := s, closing := e.begun ++ t.closing }

theorem Step.effect (hstep : t.Step e t') : t.Effect e t' := by
  cases hstep with
  | opened hopen =>
    simp only [Service.openView] at hopen
    split at hopen
    · rename_i hreg
      cases hopen
      exact .shared hreg
    · rename_i hreg
      split at hopen
      · cases hopen
      · cases hopen
        exact .started hreg rfl rfl rfl
  | @cancelled i hi =>
    have hh := List.getElem?_eq_getElem hi
    exact .moved rfl hh (.cancelled i) (Service.modify_handles hh _) rfl (List.append_nil _).symm
  | forgotten hi => exact .forgotten hi
  | @finished i answers hrunning =>
    obtain ⟨h, hh, htask⟩ := Service.task_eq_some.mp hrunning
    obtain ⟨corpus, hfinish⟩ := Service.finish_eq hh htask answers
    rw [hfinish]
    exact .moved rfl hh (.finished i answers _ htask) (Service.modify_handles hh _) rfl
      (List.append_nil _).symm
  | @checked i result hcomputed =>
    obtain ⟨h, hh, htask⟩ := Service.task_eq_some.mp hcomputed
    refine .moved rfl hh ?_ (Service.modify_handles hh _) rfl (List.append_nil _).symm
    simp only [htask]
    cases result with
    | error error => exact .failed i htask
    | ok view =>
      change h.Moves _ (if h.closed = true then _ else _)
      split
      · rename_i hclosed
        exact .dropped i htask hclosed
      · rename_i hopen
        exact .cleared i htask (Bool.not_eq_true _ ▸ hopen)
  | @delivered i view hcleared =>
    obtain ⟨h, hh, htask⟩ := Service.task_eq_some.mp hcleared
    rw [Service.deliver_eq hh htask]
    exact .moved rfl hh (.delivered i htask) (Service.modify_handles hh _) rfl rfl

/-- The event makes the view with this number, since none of its key is registered. -/
structure Starts (t : Traffic ε) (e : ViewEvent ε) (i : Nat) (h : Handle ε) : Prop where
  event : e = .opened h.request h.client h.transform i
  number : i = t.service.handles.length
  unregistered : t.service.registered.lookup h.request.key = none
  isOpen : h.closed = false
  running : h.task = .running

namespace Effect
variable {i : Nat} {h : Handle ε}

/-- Every handle is still there after an event. -/
theorem after (heff : t.Effect e t') (hh : t.service.handles[i]? = some h) :
    ∃ h', t'.service.handles[i]? = some h' ∧ h.Follows i e h' := by
  cases heff with
  | shared hreg => exact ⟨h, hh, .inl ⟨rfl, nofun⟩⟩
  | started hreg hhandles hregistered hdelivered =>
    have hi := (List.getElem?_eq_some_iff.mp hh).1
    refine ⟨h, ?_, .inl ⟨rfl, nofun⟩⟩
    simp only [hhandles]
    rw [List.getElem?_append_left hi, hh]
  | forgotten hi => exact ⟨h, hh, .inl ⟨rfl, nofun⟩⟩
  | @moved e j g g' s hsubject hg hmoves hhandles hregistered hdelivered =>
    simp only [hhandles]
    by_cases hj : j = i
    · subst hj
      obtain rfl := Option.some.inj (hg.symm.trans hh)
      refine ⟨g', ?_, .inr ⟨hsubject, hmoves⟩⟩
      exact List.getElem?_set_self (List.getElem?_eq_some_iff.mp hh).1
    · refine ⟨h, ?_, .inl ⟨rfl, ?_⟩⟩
      · rw [List.getElem?_set_ne hj, hh]
      · rw [hsubject]
        exact fun hsome => hj (Option.some.inj hsome)

/-- Every handle was there before an event, or is that of the view which the event makes. -/
theorem before (heff : t.Effect e t') {h' : Handle ε} (hh : t'.service.handles[i]? = some h') :
    (∃ h, t.service.handles[i]? = some h ∧ h.Follows i e h') ∨ t.Starts e i h' := by
  cases hold : t.service.handles[i]? with
  | some h =>
    obtain ⟨g, hg, hfollows⟩ := heff.after hold
    obtain rfl := Option.some.inj (hg.symm.trans hh)
    exact .inl ⟨h, rfl, hfollows⟩
  | none =>
    right
    cases heff with
    | shared hreg => exact nomatch hold.symm.trans hh
    | @started request client transform s hreg hhandles hregistered hdelivered =>
      simp only [hhandles] at hh
      have hi := List.getElem?_eq_none_iff.mp hold
      rw [List.getElem?_append_right hi, List.getElem?_singleton] at hh
      split at hh
      · have hlast : i = t.service.handles.length := by omega
        cases hh
        exact ⟨by rw [hlast], hlast, hreg, rfl, rfl⟩
      · cases hh
    | forgotten hi =>
      exact nomatch hold.symm.trans hh
    | moved hsubject hg hmoves hhandles hregistered hdelivered =>
      simp only [hhandles] at hh
      have hi := (List.getElem?_eq_some_iff.mp hh).1
      rw [List.length_set] at hi
      rw [List.getElem?_eq_none_iff] at hold
      omega

theorem started_handle (heff : t.Effect e t') (hstarts : t.Starts e i h) :
    t'.service.handles[i]? = some h := by
  obtain ⟨rfl, rfl, hnone, hopen, hrunning⟩ := hstarts
  cases heff with
  | shared hreg =>
    rw [hreg] at hnone
    cases hnone
  | started hreg hhandles hregistered hdelivered =>
    simp only [hhandles]
    rw [List.getElem?_concat_length, ← hopen, ← hrunning]
  | moved hsubject hg hmoves hhandles hregistered hdelivered => cases hsubject

/-- A view is registered by the event that makes it and until the end of a close of its own. -/
theorem mem_registered (heff : t.Effect e t') {key : ViewKey} :
    (key, i) ∈ t'.service.registered ↔
      ((key, i) ∈ t.service.registered ∧ e ≠ .forgotten i) ∨
      ∃ h, t.Starts e i h ∧ h.request.key = key := by
  cases heff with
  | @shared request client transform j hreg =>
    constructor
    · intro hmem
      exact .inl ⟨hmem, nofun⟩
    · intro hmem
      rcases hmem with hmem | ⟨h, ⟨he, -, hnone⟩, hkey⟩
      · exact hmem.1
      · cases he
        rw [hreg] at hnone
        cases hnone
  | @started request client transform s hreg hhandles hregistered hdelivered =>
    simp only [hregistered, List.mem_append, List.mem_singleton, Prod.mk.injEq]
    apply or_congr
    · exact (and_iff_left nofun).symm
    · constructor
      · intro hnew
        obtain ⟨hkey, hi⟩ := hnew
        refine ⟨{ request, client, transform }, ⟨by rw [hi], hi, hreg, rfl, rfl⟩, hkey.symm⟩
      · intro hnew
        obtain ⟨h, ⟨he, hi, -⟩, hkey⟩ := hnew
        cases he
        exact ⟨hkey.symm, rfl⟩
  | @forgotten j hj =>
    simp only [Service.forget, List.mem_filter, bne_iff_ne]
    constructor
    · intro hmem
      refine .inl ⟨hmem.1, ?_⟩
      intro he
      cases he
      exact hmem.2 rfl
    · intro hmem
      rcases hmem with ⟨hmem, hne⟩ | ⟨h, hstarts, -⟩
      · exact ⟨hmem, fun hij => hne (by rw [hij])⟩
      · cases hstarts.event
  | moved hsubject hg hmoves hhandles hregistered hdelivered =>
    simp only [hregistered]
    constructor
    · intro hmem
      refine .inl ⟨hmem, ?_⟩
      intro he
      subst he
      cases hsubject
    · intro hmem
      rcases hmem with hmem | ⟨h, hstarts, -⟩
      · exact hmem.1
      · rw [hstarts.event] at hsubject
        cases hsubject

/-- The begin of a close is pending until its end. -/
theorem of_mem_closing (heff : t.Effect e t') (hi : i ∈ t'.closing) :
    i ∈ t.closing ∨ e = .cancelled i := by
  cases heff with
  | shared hreg => exact .inl hi
  | started hreg hhandles hregistered hdelivered => exact .inl hi
  | forgotten hj => exact .inl (List.mem_of_mem_erase hi)
  | @moved e j h h' s hsubject hh hmoves hhandles hregistered hdelivered =>
    rcases List.mem_append.mp hi with hbegun | hold
    · cases e <;> simp_all [ViewEvent.begun]
    · exact .inl hold

theorem mem_closing (heff : t.Effect e t') (hi : i ∈ t.closing ∨ e = .cancelled i)
    (he : e ≠ .forgotten i) : i ∈ t'.closing := by
  cases heff with
  | shared hreg => simpa using hi
  | started hreg hhandles hregistered hdelivered => simpa using hi
  | @forgotten j hj =>
    have hij : i ≠ j := fun hij => he (by rw [hij])
    rw [List.mem_erase_of_ne hij]
    simpa using hi
  | moved hsubject hh hmoves hhandles hregistered hdelivered =>
    rcases hi with hi | hi
    · exact List.mem_append_right _ hi
    · subst hi
      exact List.mem_append_left _ (List.mem_singleton.mpr rfl)

end Effect

/-- The registered views are those that are not closed, and closed ones whose close has begun and not
ended; there is one for a key at most. -/
structure Consistent (t : Traffic ε) : Prop where
  keys : (t.service.registered.map Prod.fst).Nodup
  named : ∀ key i, (key, i) ∈ t.service.registered →
    ∃ h, t.service.handles[i]? = some h ∧ h.request.key = key
  kept : ∀ i h, t.service.handles[i]? = some h → h.closed = false →
    (h.request.key, i) ∈ t.service.registered
  leaving : ∀ i h, t.service.handles[i]? = some h → h.closed = true →
    (h.request.key, i) ∈ t.service.registered → i ∈ t.closing
  closing : ∀ i ∈ t.closing, ∃ h, t.service.handles[i]? = some h ∧ h.closed = true

namespace Consistent

theorem start {corpus : Corpus} {config : Config} {parse : Document → Node} {s : Service ε}
    (hstart : Service.start corpus config parse = .ok s) : Consistent { service := s } := by
  unfold Service.start at hstart
  split at hstart
  · cases hstart
  · cases hstart
    constructor <;> simp

theorem step_keys (hc : t.Consistent) (heff : t.Effect e t') :
    (t'.service.registered.map Prod.fst).Nodup := by
  cases heff with
  | shared hreg => exact hc.keys
  | @started request client transform s hreg hhandles hregistered hdelivered =>
    simp only [hregistered, List.map_append, List.map_cons, List.map_nil]
    rw [← List.concat_eq_append, List.nodup_concat]
    refine ⟨?_, hc.keys⟩
    intro hmem
    obtain ⟨entry, hentry, hkey⟩ := List.mem_map.mp hmem
    have hne := List.lookup_eq_none_iff.mp hreg entry hentry
    simp [hkey] at hne
  | forgotten hi => exact hc.keys.sublist (List.filter_sublist.map _)
  | moved hsubject hh hmoves hhandles hregistered hdelivered =>
    simp only [hregistered]
    exact hc.keys

theorem step (hc : t.Consistent) (hstep : t.Step e t') : t'.Consistent := by
  have heff := hstep.effect
  refine ⟨hc.step_keys heff, ?_, ?_, ?_, ?_⟩
  · intro key i hmem
    rcases heff.mem_registered.mp hmem with ⟨hold, -⟩ | ⟨h, hstarts, hkey⟩
    · obtain ⟨h, hh, hkey⟩ := hc.named key i hold
      obtain ⟨h', hh', hfollows⟩ := heff.after hh
      exact ⟨h', hh', by rw [hfollows.request, hkey]⟩
    · exact ⟨h, heff.started_handle hstarts, hkey⟩
  · intro i h' hh' hopen
    apply heff.mem_registered.mpr
    rcases heff.before hh' with ⟨h, hh, hfollows⟩ | hstarts
    · have hwas : ¬ (h.closed = true ∨ e = .cancelled i) := by
        rw [← hfollows.closed, hopen]
        simp
      refine .inl ⟨hfollows.request ▸ hc.kept i h hh (by simpa using mt Or.inl hwas), ?_⟩
      -- Only a close that has begun can end.
      intro he
      subst he
      cases hstep with
      | forgotten hi =>
        obtain ⟨g, hg, hclosed⟩ := hc.closing i hi
        rw [hh] at hg
        cases hg
        exact hwas (.inl hclosed)
    · exact .inr ⟨h', hstarts, rfl⟩
  · intro i h' hh' hclosed hmem
    rcases heff.before hh' with ⟨h, hh, hfollows⟩ | hstarts
    · rcases heff.mem_registered.mp hmem with ⟨hold, hne⟩ | ⟨g, hstarts, -⟩
      · refine heff.mem_closing ?_ hne
        rw [hfollows.request] at hold
        exact (hfollows.closed.mp hclosed).imp_left fun hwas => hc.leaving i h hh hwas hold
      · rw [hstarts.number, List.getElem?_eq_none (Nat.le_refl _)] at hh
        cases hh
    · rw [hstarts.isOpen] at hclosed
      cases hclosed
  · intro i hi
    have hthere : ∃ h, t.service.handles[i]? = some h ∧ (h.closed = true ∨ e = .cancelled i) := by
      rcases heff.of_mem_closing hi with hold | he
      · obtain ⟨h, hh, hclosed⟩ := hc.closing i hold
        exact ⟨h, hh, .inl hclosed⟩
      · subst he
        cases hstep with
        | cancelled hlt => exact ⟨_, List.getElem?_eq_getElem hlt, .inr rfl⟩
    obtain ⟨h, hh, hwas⟩ := hthere
    obtain ⟨h', hh', hfollows⟩ := heff.after hh
    exact ⟨h', hh', hfollows.closed.mpr hwas⟩

theorem mem_of_lookup {key : ViewKey} {i : Nat}
    (hlookup : t.service.registered.lookup key = some i) : (key, i) ∈ t.service.registered := by
  obtain ⟨before, after, hsplit, -⟩ := List.lookup_eq_some_iff.mp hlookup
  rw [hsplit]
  exact List.mem_append_right _ List.mem_cons_self

theorem lookup_iff (hc : t.Consistent) {key : ViewKey} {i : Nat} :
    t.service.registered.lookup key = some i ↔ (key, i) ∈ t.service.registered := by
  refine ⟨mem_of_lookup, ?_⟩
  intro hmem
  cases hlookup : t.service.registered.lookup key with
  | none =>
    have hne := List.lookup_eq_none_iff.mp hlookup _ hmem
    simp at hne
  | some j =>
    have hsame := List.inj_on_of_nodup_map hc.keys (mem_of_lookup hlookup) hmem rfl
    rw [(Prod.mk.inj hsame).2]

theorem run (hc : t.Consistent) {trace : List (ViewEvent ε)} (hrun : t.Run trace t') :
    t'.Consistent := by
  induction hrun with
  | nil => exact hc
  | cons hstep hrun ih => exact ih (hc.step hstep)

end Consistent
end Traffic
end SourceLinks
