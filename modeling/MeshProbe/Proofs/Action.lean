import MeshProbe.Log

/-!
How the steps of an action take effect: what a composed step does to the state
and to the outcome, read off its parts.
-/

namespace MeshProbe

/-- Two computations after one another succeed when both do. -/
theorem bind_eq_ok {ε α β : Type} {x : Except ε α} {next : α → Except ε β} {b : β} :
    (x >>= next) = .ok b ↔ ∃ a, x = .ok a ∧ next a = .ok b := by
  cases x with
  | error e => simp [bind, Except.bind]
  | ok a => simp [bind, Except.bind]

/-- Two computations after one another fail when one of them does. -/
theorem bind_eq_error {ε α β : Type} {x : Except ε α} {next : α → Except ε β} {e : ε} :
    (x >>= next) = .error e ↔ x = .error e ∨ ∃ a, x = .ok a ∧ next a = .error e := by
  cases x with
  | error e => simp [bind, Except.bind]
  | ok a => simp [bind, Except.bind]

/-- A computation whose errors are named anew succeeds as it did. -/
theorem mapError_eq_ok {ε ε' α : Type} {x : Except ε α} {name : ε → ε'} {a : α} :
    x.mapError name = .ok a ↔ x = .ok a := by
  cases x with
  | error e => exact iff_of_false nofun nofun
  | ok b =>
    change (Except.ok b : Except ε' α) = .ok a ↔ _
    rw [Except.ok.injEq, Except.ok.injEq]

/-- It fails as it did, with the error named anew. -/
theorem mapError_eq_error {ε ε' α : Type} {x : Except ε α} {name : ε → ε'} {e' : ε'} :
    x.mapError name = .error e' ↔ ∃ e, x = .error e ∧ name e = e' := by
  cases x with
  | error e =>
    change (Except.error (name e) : Except ε' α) = .error e' ↔ _
    simp
  | ok a => exact iff_of_false nofun nofun

end MeshProbe

namespace MeshProbe.Action

variable {σ ε ε' α β : Type}

/-- A step after another is taken only if the first one succeeds, from the state
that the first one leaves. -/
theorem exec_bind (action : Action σ ε α) (next : α → Action σ ε β) (s : σ) :
    (action >>= next).exec s =
      match action.exec s with
      | (.ok a, s) => (next a).exec s
      | (.error e, s) => (.error e, s) := by
  change (ExceptT.bindCont next (action.exec s).1).run (action.exec s).2 = _
  cases action.exec s with
  | mk outcome after =>
    cases outcome with
    | ok a => rfl
    | error e => rfl

theorem exec_bind_ok {action : Action σ ε α} {s after : σ} {a : α}
    (next : α → Action σ ε β) (h : action.exec s = (.ok a, after)) :
    (action >>= next).exec s = (next a).exec after := by
  rw [exec_bind, h]

theorem exec_bind_error {action : Action σ ε α} {s after : σ} {e : ε}
    (next : α → Action σ ε β) (h : action.exec s = (.error e, after)) :
    (action >>= next).exec s = (.error e, after) := by
  rw [exec_bind, h]

/-- A composed step ends with the error of its first part, or its second part is
taken from where the first one ended. -/
theorem exec_bind_cases {action : Action σ ε α} {next : α → Action σ ε β} {s final : σ}
    {outcome : Except ε β} (h : (action >>= next).exec s = (outcome, final)) :
    (∃ e, action.exec s = (.error e, final) ∧ outcome = .error e) ∨
    ∃ a after, action.exec s = (.ok a, after) ∧
      (next a).exec after = (outcome, final) := by
  rw [exec_bind] at h
  cases hexec : action.exec s with
  | mk first after =>
    rw [hexec] at h
    cases first with
    | error e =>
      cases h
      exact Or.inl ⟨e, rfl, rfl⟩
    | ok a => exact Or.inr ⟨a, after, rfl, h⟩

@[simp] theorem exec_pure (a : α) (s : σ) :
    (pure a : Action σ ε α).exec s = (.ok a, s) := rfl

@[simp] theorem exec_throw (e : ε) (s : σ) :
    (throw e : Action σ ε α).exec s = (.error e, s) := rfl

@[simp] theorem exec_ofExcept (x : Except ε α) (s : σ) :
    (ofExcept x : Action σ ε α).exec s = (x, s) := rfl

@[simp] theorem exec_update (f : σ → σ) (s : σ) :
    (update f : Action σ ε Unit).exec s = (.ok (), f s) := rfl

@[simp] theorem exec_note [Logbook σ] (record : Record) (s : σ) :
    (note record : Action σ ε Unit).exec s = (.ok (), Logbook.note record s) := rfl

/-- A step whose result is only seen through a function at the end. -/
theorem exec_bind_pure (f : α → β) (action : Action σ ε α) (s : σ) :
    (action >>= fun a => pure (f a)).exec s =
      ((action.exec s).1.map f, (action.exec s).2) := by
  rw [exec_bind]
  cases action.exec s with
  | mk outcome after =>
    cases outcome with
    | ok a => rfl
    | error e => rfl

theorem exec_mapError (f : ε → ε') (action : Action σ ε α) (s : σ) :
    (action.mapError f).exec s =
      ((action.exec s).1.mapError f, (action.exec s).2) := by
  unfold mapError exec
  rw [ExceptT.run_mk, StateT.run_bind]
  cases StateT.run action.run s with
  | mk outcome after =>
    cases outcome with
    | ok a => rfl
    | error e => rfl

end MeshProbe.Action
