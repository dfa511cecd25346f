import Patchbay.Fault

/-!
# Results that may be faults

How a computation that may fail is taken apart, and how a walk over a list is put together.

* `exists_of_bind_eq_ok`, `exists_of_map_eq_ok` — a result comes from the results before it.
* `of_bind_eq_error` — so does a fault.
* `exists_of_isOk`, `exists_of_map_toOption` — there is a result, from what can be computed of it.
* `exists_of_mem_mapM`, `exists_of_getElem?_mapM`, `exists_of_mapM_eq_error` — what a walk gives, and the fault
  it has, come from one of the items.
* `mapM_eq_ok`, `exists_mapM_eq_ok`, `mapM_eq_ite` — a walk whose steps all give something gives it all.
-/

namespace Patchbay

/-- What a result was made of. -/
theorem exists_of_bind_eq_ok {ε α β : Type} {x : Except ε α} {f : α → Except ε β} {b : β}
    (h : x >>= f = .ok b) : ∃ a, x = .ok a ∧ f a = .ok b := by
  cases x with
  | error fault => cases h
  | ok a => exact ⟨a, rfl, h⟩

/-- A fault of a sequence is a fault of its first part or of its second. -/
theorem of_bind_eq_error {α β : Type} {x : Except Fault α} {f : α → Except Fault β} {fault : Fault}
    (h : x >>= f = .error fault) : x = .error fault ∨ ∃ a, x = .ok a ∧ f a = .error fault := by
  cases x with
  | error fault' =>
      cases h
      exact .inl rfl
  | ok a => exact .inr ⟨a, rfl, h⟩

theorem exists_of_map_eq_ok {α β : Type} {x : Except Fault α} {f : α → β} {b : β} (h : x.map f = .ok b) :
    ∃ a, x = .ok a ∧ f a = b := by
  cases x with
  | error fault => cases h
  | ok a =>
      cases h
      exact ⟨a, rfl, rfl⟩

instance {α : Type} (x : Except Fault α) (p : α → Prop) [DecidablePred p] : Decidable (∃ a, x = .ok a ∧ p a) :=
  match x with
  | .ok a => decidable_of_iff (p a) ⟨fun h => ⟨a, rfl, h⟩, fun ⟨_, heq, h⟩ => Except.ok.inj heq ▸ h⟩
  | .error _ => isFalse fun ⟨_, heq, _⟩ => nomatch heq

theorem exists_of_isOk {α : Type} {x : Except Fault α} (h : x.isOk = true) : ∃ a, x = .ok a := by
  cases x with
  | error fault => cases h
  | ok a => exact ⟨a, rfl⟩

/-- A result, from what can be computed of it. -/
theorem exists_of_map_toOption {α β : Type} {x : Except Fault α} {f : α → β} {b : β}
    (h : x.toOption.map f = some b) : ∃ a, x = .ok a ∧ f a = b := by
  cases x with
  | error fault => cases h
  | ok a => exact ⟨a, rfl, Option.some.inj h⟩

/-- What a walk over a list gives comes from the items of the list. -/
theorem exists_of_mem_mapM {α β : Type} {f : α → Except Fault β} {items : List α} {results : List β}
    (h : items.mapM f = .ok results) {b : β} (hb : b ∈ results) : ∃ a ∈ items, f a = .ok b := by
  induction items generalizing results with
  | nil =>
      cases h
      cases hb
  | cons a rest ih =>
      rw [List.mapM_cons] at h
      obtain ⟨first, ha, h⟩ := exists_of_bind_eq_ok h
      obtain ⟨others, hrest, h⟩ := exists_of_bind_eq_ok h
      cases h
      rcases List.mem_cons.mp hb with rfl | hb
      · exact ⟨a, List.mem_cons_self, ha⟩
      · obtain ⟨a', ha', hread⟩ := ih hrest hb
        exact ⟨a', List.mem_cons_of_mem a ha', hread⟩

/-- What a walk gives at a place comes from the item at that place. -/
theorem exists_of_getElem?_mapM {α β : Type} {f : α → Except Fault β} {items : List α} {results : List β}
    (h : items.mapM f = .ok results) {i : Nat} {a : α} (ha : items[i]? = some a) :
    ∃ b, results[i]? = some b ∧ f a = .ok b := by
  induction items generalizing results i with
  | nil => cases ha
  | cons first rest ih =>
      rw [List.mapM_cons] at h
      obtain ⟨b, hb, h⟩ := exists_of_bind_eq_ok h
      obtain ⟨others, hothers, h⟩ := exists_of_bind_eq_ok h
      cases h
      cases i with
      | zero =>
          cases ha
          exact ⟨b, rfl, hb⟩
      | succ i => exact ih hothers ha

/-- The fault of a walk over a list is the fault of one of its items. -/
theorem exists_of_mapM_eq_error {α β : Type} {f : α → Except Fault β} {items : List α} {fault : Fault}
    (h : items.mapM f = .error fault) : ∃ a ∈ items, f a = .error fault := by
  induction items with
  | nil => cases h
  | cons a rest ih =>
      rw [List.mapM_cons] at h
      cases ha : f a with
      | error fault' =>
          rw [ha] at h
          cases h
          exact ⟨a, by simp, ha⟩
      | ok b =>
          rw [ha] at h
          cases hrest : rest.mapM f with
          | error fault' =>
              rw [hrest] at h
              cases h
              obtain ⟨a', hmem, hfault⟩ := ih hrest
              exact ⟨a', by simp [hmem], hfault⟩
          | ok bs =>
              rw [hrest] at h
              cases h

/-- A walk over a list without a fault gives what its steps give. -/
theorem mapM_eq_ok {α β : Type} {f : α → Except Fault β} {g : α → β} {items : List α}
    (h : ∀ a ∈ items, f a = .ok (g a)) : items.mapM f = .ok (items.map g) := by
  induction items with
  | nil => rfl
  | cons a rest ih =>
      rw [List.mapM_cons, h a (by simp), ih fun b hb => h b (by simp [hb])]
      rfl

/-- A walk whose steps have the same fault, if they have one. -/
theorem mapM_eq_ite {α β : Type} {f : α → Except Fault β} {p : α → Bool} {g : α → β} {fault : Fault}
    {items : List α} (h : ∀ a ∈ items, f a = if p a then .ok (g a) else .error fault) :
    items.mapM f = if items.all p then .ok (items.map g) else .error fault := by
  induction items with
  | nil => rfl
  | cons a rest ih =>
      rw [List.mapM_cons, h a List.mem_cons_self, ih fun b hb => h b (List.mem_cons_of_mem a hb), List.all_cons]
      cases p a <;> cases rest.all p <;> rfl

/-- A walk over a list ends if each of its steps does. -/
theorem exists_mapM_eq_ok {α β : Type} {f : α → Except Fault β} {items : List α}
    (h : ∀ a ∈ items, ∃ b, f a = .ok b) : ∃ bs, items.mapM f = .ok bs := by
  cases hresult : items.mapM f with
  | ok bs => exact ⟨bs, rfl⟩
  | error fault =>
      obtain ⟨a, ha, hfault⟩ := exists_of_mapM_eq_error hresult
      obtain ⟨b, hb⟩ := h a ha
      rw [hb] at hfault
      cases hfault

end Patchbay
