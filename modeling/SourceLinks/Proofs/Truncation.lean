import SourceLinks.Proofs.ClassLayout

namespace SourceLinks.ClassFile

/-- The reader takes exactly these octets, and where they end too early it says so. -/
structure Needs {α : Type} (r : Reader α) (bytes : List UInt8) (a : α) : Prop where
  reads : Reads r bytes a
  cut : ∀ position, ∀ k < bytes.length, ∃ place ≤ position + k,
    r.run ⟨position, bytes.take k⟩ = .error (.truncated place)

namespace Needs
variable {α β : Type} {r : Reader α} {f : α → Reader β} {a : α} {b : β} {bytes more : List UInt8}

theorem pure (a : α) : Needs (Pure.pure a) [] a where
  reads := Reads.pure a
  cut _ _ hk := absurd hk (Nat.not_lt_zero _)

theorem bind (h : Needs r bytes a) (hf : Needs (f a) more b) :
    Needs (r >>= f) (bytes ++ more) b := by
  refine ⟨h.reads.bind hf.reads, ?_⟩
  intro position k hk
  -- The octets end among those of the first reader, or else among those of the second.
  by_cases hfirst : k < bytes.length
  · obtain ⟨place, hplace, hcut⟩ := h.cut position k hfirst
    refine ⟨place, hplace, ?_⟩
    rw [List.take_append_of_le_length (Nat.le_of_lt hfirst), StateT.run_bind, hcut]
    rfl
  · rw [List.length_append] at hk
    obtain ⟨place, hplace, hcut⟩ :=
      hf.cut (position + bytes.length) (k - bytes.length) (by omega)
    refine ⟨place, by omega, ?_⟩
    rw [List.take_append, List.take_of_length_le (Nat.le_of_not_lt hfirst), StateT.run_bind,
      h.reads position]
    exact hcut

theorem take {n : Nat} (h : bytes.length = n) : Needs (ClassFile.take n) bytes bytes := by
  refine ⟨Reads.take h, ?_⟩
  intro position k hk
  have hshort : ((bytes.take k).take n).length < n := by
    rw [List.length_take, List.length_take]
    omega
  refine ⟨position, Nat.le_add_right position k, ?_⟩
  simp only [ClassFile.take, StateT.run, hshort, ↓reduceIte]

end Needs

/-- Where the reader succeeds it has taken octets from the front, and it needs them all. -/
def Steady {α : Type} (r : Reader α) : Prop :=
  ∀ c a c', r.run c = .ok (a, c') → ∃ front, c.rest = front ++ c'.rest ∧ Needs r front a

namespace Steady
variable {α β : Type} {r : Reader α} {f : α → Reader β}

theorem pure (a : α) : Steady (Pure.pure a : Reader α) := by
  intro c b c' hrun
  cases hrun
  exact ⟨[], rfl, Needs.pure a⟩

theorem throw (e : ClassFormatError) : Steady (MonadExcept.throw e : Reader α) := by
  intro c a c' hrun
  cases hrun

theorem bind (h : Steady r) (hf : ∀ a, Steady (f a)) : Steady (r >>= f) := by
  intro c b c'' hrun
  rw [StateT.run_bind] at hrun
  cases hfirst : r.run c with
  | error e =>
    rw [hfirst] at hrun
    cases hrun
  | ok result =>
    obtain ⟨a, c'⟩ := result
    rw [hfirst] at hrun
    obtain ⟨front, hrest, hneeds⟩ := h c a c' hfirst
    obtain ⟨more, hrest', hmore⟩ := hf a c' b c'' hrun
    exact ⟨front ++ more, by rw [hrest, hrest', List.append_assoc], hneeds.bind hmore⟩

theorem map {g : α → β} (h : Steady r) : Steady (r >>= fun a => Pure.pure (g a)) :=
  h.bind fun a => Steady.pure (g a)

theorem take (n : Nat) : Steady (ClassFile.take n) := by
  intro c bytes c' hrun
  simp only [ClassFile.take, StateT.run] at hrun
  split at hrun
  · cases hrun
  · rename_i henough
    cases hrun
    have hlen : (c.rest.take n).length = n := by
      rw [List.length_take] at henough ⊢
      omega
    exact ⟨c.rest.take n, (List.take_append_drop n c.rest).symm, Needs.take hlen⟩

theorem skip (n : Nat) : Steady (ClassFile.skip n) :=
  (Steady.take n).map

theorem number (width : Nat) : Steady (ClassFile.number width) :=
  (Steady.take width).map

theorem times (h : Steady r) (n : Nat) : Steady (ClassFile.times r n) := by
  induction n with
  | zero => exact Steady.pure []
  | succ n ih => exact h.bind fun _ => ih.map

end Steady

end SourceLinks.ClassFile
