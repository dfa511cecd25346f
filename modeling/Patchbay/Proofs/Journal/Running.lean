import Patchbay.Journal

/-!
# Running procedures

What a computation comes to, apart from what it reports.

* **`Procedure.Succeeds`** is the triple of total correctness: from a state, a procedure ends without
  a fault, in a result and a state of which something holds.  It has one rule for every way in which
  procedures are made, so that a procedure is followed step by step and never opened.
* **`Procedure.succeeds_forM`** is the rule for loops: what every round keeps holds after the last.
  `Procedure.succeeds_forM_append` is for invariants that speak of the rounds before.
* **`Attempt.Ends`** is the same without a state, for computations that may fail: something holds of
  the result, or the fault is one after which a batch goes on.
* `Attempt.exists_bind_bind_pure_iff`, `Attempt.exists_mapM_iff` — a computation has a result exactly if
  its parts have one, whatever they report.
-/

namespace Patchbay

instance : LawfulMonad Logged := by
  refine .mk' Logged ?_ ?_ ?_
  · intro α x
    change (⟨x.value, x.records ++ []⟩ : Logged α) = x
    rw [List.append_nil]
  · intro α β a f
    change (⟨(f a).value, [] ++ (f a).records⟩ : Logged β) = f a
    rw [List.nil_append]
  · intro α β γ x f g
    have hrecords : (x >>= f >>= g).records = (x >>= fun a => f a >>= g).records :=
      List.append_assoc _ _ _
    exact congrArg (Logged.mk _) hrecords

namespace Procedure

variable {σ α β : Type}

/-! ## The triple -/

/-- What a procedure comes to in a state, apart from what it reports. -/
def result (x : Procedure σ α) (s : σ) : Except Fault α × σ := (x.start s).value

/-- In the state `s` the procedure ends without a fault, in a result and a state as `Q` has
them. -/
def Succeeds (x : Procedure σ α) (s : σ) (Q : α → σ → Prop) : Prop :=
  ∃ a s', x.result s = (.ok a, s') ∧ Q a s'

theorem result_bind (x : Procedure σ α) (f : α → Procedure σ β) (s : σ) :
    (x >>= f).result s =
      match x.result s with
      | (.ok a, s') => (f a).result s'
      | (.error fault, s') => (.error fault, s') := by
  change (ExceptT.bindCont f (x.result s).1 (x.result s).2).value = _
  rcases x.result s with ⟨_ | _, s'⟩ <;> rfl

/-- Recovery is only looked at after a fault. -/
theorem result_recover (admits : Fault → Bool) (x : Procedure σ α) (instead : Fault → Procedure σ α)
    (s : σ) :
    (recover admits x instead).result s =
      match x.result s with
      | (.ok a, s') => (.ok a, s')
      | (.error fault, s') =>
        if admits fault then (instead fault).result s' else (.error fault, s') := by
  have hresult : (recover admits x instead).result s =
      result (recover admits (fun _ => ⟨x.result s, []⟩) instead) s := rfl
  rw [hresult]
  rcases x.result s with ⟨fault | a, s'⟩
  · have hfault : result (recover admits (fun _ => ⟨(.error fault, s'), []⟩) instead) s =
        result (if admits fault then instead fault else throw fault) s' := rfl
    rw [hfault]
    dsimp only
    split <;> rfl
  · rfl

/-! ## Its rules -/

theorem Succeeds.mono {x : Procedure σ α} {s : σ} {Q Q' : α → σ → Prop}
    (hx : x.Succeeds s Q) (h : ∀ a s', Q a s' → Q' a s') : x.Succeeds s Q' := by
  obtain ⟨a, s', hresult, hQ⟩ := hx
  exact ⟨a, s', hresult, h a s' hQ⟩

/-- A procedure comes to one thing only. -/
theorem Succeeds.and {x : Procedure σ α} {s : σ} {P Q : α → σ → Prop} (hP : x.Succeeds s P)
    (hQ : x.Succeeds s Q) : x.Succeeds s fun a s' => P a s' ∧ Q a s' := by
  obtain ⟨a, s', hresult, hP⟩ := hP
  obtain ⟨b, s'', hresult', hQ⟩ := hQ
  rw [hresult] at hresult'
  cases hresult'
  exact ⟨a, s', hresult, hP, hQ⟩

theorem succeeds_pure {a : α} {s : σ} {Q : α → σ → Prop} (h : Q a s) :
    (pure a : Procedure σ α).Succeeds s Q := ⟨a, s, rfl, h⟩

theorem Succeeds.bind {x : Procedure σ α} {f : α → Procedure σ β} {s : σ}
    {R : α → σ → Prop} {Q : β → σ → Prop} (hx : x.Succeeds s R)
    (hf : ∀ a s', R a s' → (f a).Succeeds s' Q) : (x >>= f).Succeeds s Q := by
  obtain ⟨a, s', hresult, hR⟩ := hx
  obtain ⟨b, s'', hrest, hQ⟩ := hf a s' hR
  refine ⟨b, s'', ?_, hQ⟩
  rw [result_bind, hresult]
  exact hrest

/-- `Succeeds.bind` for a first step whose result does not matter. -/
theorem Succeeds.andThen {x : Procedure σ Unit} {f : Unit → Procedure σ β} {s : σ}
    {R : σ → Prop} {Q : β → σ → Prop} (hx : x.Succeeds s fun _ s' => R s')
    (hf : ∀ s', R s' → (f ()).Succeeds s' Q) : (x >>= f).Succeeds s Q :=
  hx.bind fun _ s' hR => hf s' hR

theorem succeeds_get {s : σ} {Q : σ → σ → Prop} (h : Q s s) :
    (get : Procedure σ σ).Succeeds s Q := ⟨s, s, rfl, h⟩

theorem succeeds_modify {f : σ → σ} {s : σ} {Q : Unit → σ → Prop} (h : Q () (f s)) :
    (modify f : Procedure σ Unit).Succeeds s Q := ⟨(), f s, rfl, h⟩

theorem succeeds_set {s t : σ} {Q : Unit → σ → Prop} (h : Q () t) :
    (set t : Procedure σ Unit).Succeeds s Q := ⟨(), t, rfl, h⟩

theorem succeeds_logged {x : Logged α} {s : σ} {Q : α → σ → Prop} (h : Q x.value s) :
    (logged x).Succeeds s Q := ⟨x.value, s, rfl, h⟩

theorem succeeds_ofResult {x : Except Fault α} {a : α} {s : σ} {Q : α → σ → Prop}
    (hx : x = .ok a) (h : Q a s) : (ofResult x).Succeeds s Q := by
  subst hx
  exact ⟨a, s, rfl, h⟩

/-- What a computation gives is what goes on. -/
theorem succeeds_ofResult_bind {x : Except Fault α} {a : α} {f : α → Procedure σ β} {s : σ} {Q : β → σ → Prop}
    (hx : x = .ok a) (h : (f a).Succeeds s Q) : (ofResult x >>= f).Succeeds s Q :=
  (succeeds_ofResult (Q := fun b s' => b = a ∧ s' = s) hx ⟨rfl, rfl⟩).bind fun _ _ ⟨hb, hs⟩ => by
    subst hb hs
    exact h

/-- What succeeds needs no recovery. -/
theorem Succeeds.recover {admits : Fault → Bool} {x : Procedure σ α} {instead : Fault → Procedure σ α}
    {s : σ} {Q : α → σ → Prop} (hx : x.Succeeds s Q) :
    (recover admits x instead).Succeeds s Q := by
  obtain ⟨a, s', hresult, hQ⟩ := hx
  refine ⟨a, s', ?_, hQ⟩
  rw [result_recover, hresult]

/-- After an admitted fault the procedure goes on with its substitute. -/
theorem succeeds_recover_of_fault {admits : Fault → Bool} {x : Procedure σ α}
    {instead : Fault → Procedure σ α} {s s' : σ} {fault : Fault} {Q : α → σ → Prop}
    (hx : x.result s = (.error fault, s')) (hadmits : admits fault = true)
    (h : (instead fault).Succeeds s' Q) : (recover admits x instead).Succeeds s Q := by
  obtain ⟨a, s'', hresult, hQ⟩ := h
  refine ⟨a, s'', ?_, hQ⟩
  rw [result_recover, hx]
  simp only [hadmits, if_true]
  exact hresult

/-- What every round of a loop keeps holds after the loop. -/
theorem succeeds_forM {f : α → Procedure σ PUnit} {inv : σ → Prop} {items : List α}
    (hf : ∀ a ∈ items, ∀ s, inv s → (f a).Succeeds s fun _ s' => inv s') {s : σ} (hs : inv s) :
    (items.forM f).Succeeds s fun _ s' => inv s' := by
  induction items generalizing s with
  | nil => exact succeeds_pure hs
  | cons a rest ih =>
      refine (hf a (by simp) s hs).andThen fun s' hs' => ?_
      exact ih (fun b hb => hf b (by simp [hb])) hs'

/-- What a round of a loop adds to the rounds before it holds of all of them after the loop. -/
theorem succeeds_forM_append {f : α → Procedure σ PUnit} {I : List α → σ → Prop} {items : List α}
    (hf : ∀ done a rest, items = done ++ a :: rest → ∀ s, I done s →
      (f a).Succeeds s fun _ s' => I (done ++ [a]) s')
    {s : σ} (hs : I [] s) : (items.forM f).Succeeds s fun _ s' => I items s' := by
  suffices h : ∀ rest done s, items = done ++ rest → I done s →
      (rest.forM f).Succeeds s fun _ s' => I items s' from h items [] s rfl hs
  intro rest
  induction rest with
  | nil =>
      intro done s heq hs
      refine succeeds_pure ?_
      rwa [heq, List.append_nil]
  | cons a rest ih =>
      intro done s heq hs
      refine (hf done a rest heq s hs).andThen fun s' hs' => ?_
      exact ih _ _ (heq.trans (List.append_cons _ _ _)) hs'

/-- `succeeds_forM_append` for rounds that may come in any order. -/
theorem succeeds_forM_done {f : α → Procedure σ PUnit} {I : List α → σ → Prop} {items : List α}
    (hf : ∀ done, ∀ a ∈ items, ∀ s, I done s → (f a).Succeeds s fun _ s' => I (done ++ [a]) s')
    {s : σ} (hs : I [] s) : (items.forM f).Succeeds s fun _ s' => I items s' :=
  succeeds_forM_append (fun done a rest heq s hs => hf done a (by simp [heq]) s hs) hs

end Procedure

/-! ## Attempts -/

namespace Attempt

variable {α β : Type}

/-- The attempt ends without a fault, in a result as `Q` has it. -/
def Succeeds (x : Attempt α) (Q : α → Prop) : Prop := ∃ a, x.outcome.value = .ok a ∧ Q a

/-- The attempt succeeds so, or ends in a fault after which a batch goes on. -/
def Ends (x : Attempt α) (Q : α → Prop) : Prop :=
  x.Succeeds Q ∨ ∃ fault, x.outcome.value = .error fault ∧ fault.isLocal = true

theorem Succeeds.mono {x : Attempt α} {Q Q' : α → Prop} (hx : x.Succeeds Q)
    (h : ∀ a, Q a → Q' a) : x.Succeeds Q' := by
  obtain ⟨a, hresult, hQ⟩ := hx
  exact ⟨a, hresult, h a hQ⟩

theorem Succeeds.and {x : Attempt α} {P Q : α → Prop} (hP : x.Succeeds P) (hQ : x.Succeeds Q) :
    x.Succeeds fun a => P a ∧ Q a := by
  obtain ⟨a, hresult, hP⟩ := hP
  obtain ⟨b, hresult', hQ⟩ := hQ
  rw [hresult] at hresult'
  cases hresult'
  exact ⟨a, hresult, hP, hQ⟩

theorem outcome_bind (x : Attempt α) (f : α → Attempt β) :
    (x >>= f).outcome.value =
      match x.outcome.value with
      | .ok a => (f a).outcome.value
      | .error fault => .error fault := by
  change (ExceptT.bindCont f x.outcome.value).value = _
  cases x.outcome.value <;> rfl

/-- Sequences whose parts come to the same come to the same. -/
theorem outcome_bind_congr {x y : Attempt α} {f g : α → Attempt β} (hx : x.outcome.value = y.outcome.value)
    (hf : ∀ a, (f a).outcome.value = (g a).outcome.value) :
    (x >>= f).outcome.value = (y >>= g).outcome.value := by
  rw [outcome_bind, outcome_bind, hx]
  cases y.outcome.value with
  | ok a => exact hf a
  | error fault => rfl

theorem succeeds_pure {a : α} {Q : α → Prop} (h : Q a) : (pure a : Attempt α).Succeeds Q :=
  ⟨a, rfl, h⟩

theorem succeeds_ofExcept {x : Except Fault α} {a : α} {Q : α → Prop} (hx : x = .ok a)
    (h : Q a) : (ofExcept x).Succeeds Q := by
  subst hx
  exact ⟨a, rfl, h⟩

theorem succeeds_lift {x : Logged α} {Q : α → Prop} (h : Q x.value) :
    Succeeds (ExceptT.lift x) Q := ⟨x.value, rfl, h⟩

theorem Succeeds.bind {x : Attempt α} {f : α → Attempt β} {R : α → Prop} {Q : β → Prop}
    (hx : x.Succeeds R) (hf : ∀ a, R a → (f a).Succeeds Q) : (x >>= f).Succeeds Q := by
  obtain ⟨a, hresult, hR⟩ := hx
  obtain ⟨b, hrest, hQ⟩ := hf a hR
  refine ⟨b, ?_, hQ⟩
  rw [outcome_bind, hresult]
  exact hrest

theorem succeeds_forM {f : α → Attempt PUnit} {items : List α}
    (hf : ∀ a ∈ items, (f a).Succeeds fun _ => True) : (items.forM f).Succeeds fun _ => True := by
  induction items with
  | nil => exact succeeds_pure trivial
  | cons a rest ih =>
      refine (hf a (by simp)).bind fun _ _ => ?_
      exact ih fun b hb => hf b (by simp [hb])

/-- What a sequence ends in is what its second part makes of the result of the first. -/
theorem exists_of_outcome_bind_eq_ok {x : Attempt α} {f : α → Attempt β} {b : β}
    (h : (x >>= f).outcome.value = .ok b) :
    ∃ a, x.outcome.value = .ok a ∧ (f a).outcome.value = .ok b := by
  rw [outcome_bind] at h
  cases hx : x.outcome.value with
  | error fault => rw [hx] at h; cases h
  | ok a => rw [hx] at h; exact ⟨a, rfl, h⟩

theorem outcome_bind_pure (x : Attempt α) (f : α → β) :
    (x >>= fun a => pure (f a)).outcome.value = x.outcome.value.map f := by
  rw [outcome_bind]
  cases x.outcome.value <;> rfl

/-- Two attempts of which none depends on the other. -/
theorem exists_bind_bind_pure_iff {γ : Type} {x : Attempt α} {y : Attempt β} {f : α → β → γ} :
    (∃ c, (x >>= fun a => y >>= fun b => pure (f a b)).outcome.value = .ok c) ↔
      (∃ a, x.outcome.value = .ok a) ∧ ∃ b, y.outcome.value = .ok b := by
  rw [outcome_bind]
  cases x.outcome.value with
  | error fault => simp
  | ok a =>
      dsimp only
      rw [outcome_bind_pure]
      cases y.outcome.value <;> simp [Except.map]

theorem exists_bind_pure_iff {x : Attempt α} {f : α → β} :
    (∃ b, (x >>= fun a => pure (f a)).outcome.value = .ok b) ↔ ∃ a, x.outcome.value = .ok a := by
  rw [outcome_bind_pure]
  cases x.outcome.value <;> simp [Except.map]

/-- A walk over a list succeeds with what its steps succeed with. -/
theorem outcome_mapM_eq_ok {f : α → Attempt β} {items : List α} {results : List β} :
    (items.mapM f).outcome.value = .ok results ↔
      results.map Except.ok = items.map fun a => (f a).outcome.value := by
  induction items generalizing results with
  | nil =>
      change Except.ok [] = Except.ok results ↔ _
      simp [eq_comm]
  | cons a rest ih =>
      rw [List.mapM_cons, outcome_bind, List.map_cons]
      cases (f a).outcome.value with
      | error fault => cases results <;> simp
      | ok b =>
          dsimp only
          rw [outcome_bind_pure]
          cases results with
          | nil => cases (rest.mapM f).outcome.value <;> simp [Except.map]
          | cons c results =>
              rw [List.map_cons, List.cons.injEq, ← ih]
              cases (rest.mapM f).outcome.value <;> simp [Except.map, eq_comm]

/-- A walk over a list without a fault gives what its steps give. -/
theorem outcome_mapM {f : α → Attempt β} {g : α → β} {items : List α}
    (h : ∀ a ∈ items, (f a).outcome.value = .ok (g a)) :
    (items.mapM f).outcome.value = .ok (items.map g) := by
  rw [outcome_mapM_eq_ok, List.map_map]
  exact List.map_congr_left fun a ha => (h a ha).symm

theorem Succeeds.ends {x : Attempt α} {Q : α → Prop} (hx : x.Succeeds Q) : x.Ends Q :=
  Or.inl hx

theorem ends_pure {a : α} {Q : α → Prop} (h : Q a) : (pure a : Attempt α).Ends Q := (succeeds_pure h).ends

theorem ends_ofExcept {x : Except Fault α} {Q : α → Prop} (hok : ∀ a, x = .ok a → Q a)
    (hfault : ∀ fault, x = .error fault → fault.isLocal = true) : (ofExcept x).Ends Q := by
  cases x with
  | ok a => exact Or.inl ⟨a, rfl, hok a rfl⟩
  | error fault => exact Or.inr ⟨fault, rfl, hfault fault rfl⟩

theorem ends_throw {fault : Fault} {Q : α → Prop} (h : fault.isLocal = true) :
    (throw fault : Attempt α).Ends Q := Or.inr ⟨fault, rfl, h⟩

theorem Ends.bind {x : Attempt α} {f : α → Attempt β} {R : α → Prop} {Q : β → Prop}
    (hx : x.Ends R) (hf : ∀ a, R a → (f a).Ends Q) : (x >>= f).Ends Q := by
  rcases hx with ⟨a, hresult, hR⟩ | ⟨fault, hresult, hlocal⟩
  · rcases hf a hR with ⟨b, hrest, hQ⟩ | ⟨fault, hrest, hlocal⟩
    · refine Or.inl ⟨b, ?_, hQ⟩
      rw [outcome_bind, hresult]
      exact hrest
    · refine Or.inr ⟨fault, ?_, hlocal⟩
      rw [outcome_bind, hresult]
      exact hrest
  · refine Or.inr ⟨fault, ?_, hlocal⟩
    rw [outcome_bind, hresult]

/-- What a sequence ends in, its first part ended in before. -/
theorem Ends.of_bind {x : Attempt α} {f : α → Attempt β} {Q : β → Prop} (h : (x >>= f).Ends Q) :
    x.Ends fun _ => True := by
  unfold Ends Succeeds at h
  rw [outcome_bind] at h
  cases hx : x.outcome.value with
  | ok a => exact Or.inl ⟨a, hx, trivial⟩
  | error fault =>
      rw [hx] at h
      rcases h with ⟨_, ⟨⟩, _⟩ | ⟨_, ⟨⟩, hlocal⟩
      exact Or.inr ⟨fault, hx, hlocal⟩

/-- What a walk over a list gives comes from the items of the list. -/
theorem exists_of_mem_mapM {f : α → Attempt β} {items : List α} {results : List β}
    (h : (items.mapM f).outcome.value = .ok results) {b : β} (hb : b ∈ results) :
    ∃ a ∈ items, (f a).outcome.value = .ok b := by
  have hmem : Except.ok b ∈ items.map fun a => (f a).outcome.value :=
    outcome_mapM_eq_ok.mp h ▸ List.mem_map_of_mem hb
  exact List.mem_map.mp hmem

/-- A walk over a list succeeds if its steps do. -/
theorem exists_mapM_iff {f : α → Attempt β} {items : List α} :
    (∃ results, (items.mapM f).outcome.value = .ok results) ↔
      ∀ a ∈ items, ∃ b, (f a).outcome.value = .ok b := by
  simp only [outcome_mapM_eq_ok]
  constructor
  · rintro ⟨results, hresults⟩ a ha
    have hresult : (f a).outcome.value ∈ results.map Except.ok := hresults ▸ List.mem_map_of_mem ha
    obtain ⟨b, -, hb⟩ := List.mem_map.mp hresult
    exact ⟨b, hb.symm⟩
  · intro h
    induction items with
    | nil => exact ⟨[], rfl⟩
    | cons a rest ih =>
        obtain ⟨b, hb⟩ := h a List.mem_cons_self
        obtain ⟨results, hresults⟩ := ih fun c hc => h c (List.mem_cons_of_mem _ hc)
        exact ⟨b :: results, by rw [List.map_cons, List.map_cons, hresults, hb]⟩

end Attempt

/-- An attempt that succeeds does so as a procedure, and leaves the state as it was. -/
theorem Procedure.succeeds_attempt {σ α : Type} {x : Attempt α} {s : σ} {Q : α → σ → Prop}
    (hx : x.Succeeds fun a => Q a s) : (Procedure.attempt x).Succeeds s Q := by
  obtain ⟨a, houtcome, hQ⟩ := hx
  have hlogged : (Procedure.logged x.outcome).Succeeds s fun r s' => r = .ok a ∧ s' = s :=
    succeeds_logged ⟨houtcome, rfl⟩
  refine hlogged.bind fun r s' ⟨hr, hs'⟩ => ?_
  subst hs'
  exact succeeds_ofResult hr hQ

end Patchbay
