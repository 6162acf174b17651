import Relocate.Run

namespace Relocate.Action

variable {τ ε δ α β : Type}

/-- What an action comes to from a state, and the state it leaves. -/
def exec (a : Action τ ε α) (t : τ) : Except ε α × τ := a.run.run t

@[simp] theorem exec_pure (x : α) (t : τ) : exec (pure x : Action τ ε α) t = (.ok x, t) := rfl

@[simp] theorem exec_throw (e : ε) (t : τ) : exec (throw e : Action τ ε α) t = (.error e, t) := rfl

@[simp] theorem exec_get (t : τ) : exec (get : Action τ ε τ) t = (.ok t, t) := rfl

@[simp] theorem exec_modify (f : τ → τ) (t : τ) :
    exec (modify f : Action τ ε PUnit) t = (.ok ⟨⟩, f t) := rfl

@[simp] theorem liftM_ok (x : α) : (liftM (.ok x : Except ε α) : Action τ ε α) = pure x := rfl

@[simp] theorem liftM_error (e : ε) :
    (liftM (.error e : Except ε α) : Action τ ε α) = throw e := rfl

@[simp] theorem throw_bind (e : ε) (f : α → Action τ ε β) :
    (throw e : Action τ ε α) >>= f = throw e := rfl

@[simp] theorem ensure_true (e : ε) : (ensure true e : Action τ ε Unit) = pure () := rfl

@[simp] theorem ensure_false (e : ε) : (ensure false e : Action τ ε Unit) = throw e := rfl

theorem exec_ensure (holds : Bool) (e : ε) (t : τ) :
    exec (ensure holds e) t = (if holds then .ok () else .error e, t) := by
  cases holds <;> rfl

theorem exec_bind_of_ok {a : Action τ ε α} {f : α → Action τ ε β} {t t' : τ} {x : α}
    (h : exec a t = (.ok x, t')) : exec (a >>= f) t = exec (f x) t' := by
  unfold exec at h ⊢
  rw [ExceptT.run_bind, StateT.run_bind, h]
  rfl

theorem exec_bind_of_error {a : Action τ ε α} {f : α → Action τ ε β} {t t' : τ} {e : ε}
    (h : exec a t = (.error e, t')) : exec (a >>= f) t = (.error e, t') := by
  unfold exec at h ⊢
  rw [ExceptT.run_bind, StateT.run_bind, h]
  rfl

theorem ok_of_bind {x : Except ε α} {f : α → Except ε β} {b : β} (h : x.bind f = .ok b) :
    ∃ a, x = .ok a ∧ f a = .ok b := by
  cases x with
  | ok a => exact ⟨a, rfl, h⟩
  | error e => cases h

theorem ok_of_mapError {x : Except ε α} {f : ε → δ} {a : α} (h : x.mapError f = .ok a) :
    x = .ok a := by
  cases x with
  | ok a' => exact congrArg Except.ok (Except.ok.inj h)
  | error e => cases h

theorem exec_mapError (f : ε → δ) (a : Action τ ε α) (t : τ) :
    exec (a.mapError f) t = ((exec a t).1.mapError f, (exec a t).2) := by
  simp only [exec, mapError, ExceptT.run_mk, StateT.run_bind]
  rcases StateT.run (ExceptT.run a) t with ⟨r, t'⟩
  cases r <;> rfl

theorem mapError_id (a : Action τ ε α) : a.mapError id = a := by
  funext t
  refine (exec_mapError id a t).trans ?_
  rcases h : exec a t with ⟨r, t'⟩
  cases r <;> exact h.symm

theorem exec_attempt (a : Action τ ε α) (t : τ) :
    exec (a.attempt : Action τ δ (Except ε α)) t = (.ok (exec a t).1, (exec a t).2) := rfl

def reading (a : Action τ ε α) (f : α → Except ε β) : Action τ ε β := a >>= fun x => liftM (f x)

theorem exec_reading (a : Action τ ε α) (f : α → Except ε β) (t : τ) :
    exec (a.reading f) t = ((exec a t).1.bind f, (exec a t).2) := by
  unfold reading
  rcases ha : exec a t with ⟨ra, t'⟩
  cases ra with
  | ok x =>
    rw [exec_bind_of_ok ha]
    rfl
  | error e =>
    rw [exec_bind_of_error ha]
    rfl

theorem reading_ok (a : Action τ ε α) : a.reading .ok = a := bind_pure a

theorem discard_eq (a : Action τ ε α) : discard a = a.reading fun _ => .ok ⟨⟩ := by
  simp only [Functor.discard]
  rfl

theorem reading_reading {γ : Type} (a : Action τ ε α) (f : α → Except ε β) (g : β → Except ε γ) :
    (a.reading f).reading g = a.reading fun x => (f x).bind g := by
  funext t
  have h : exec ((a.reading f).reading g) t = exec (a.reading fun x => (f x).bind g) t := by
    rw [exec_reading, exec_reading, exec_reading]
    cases (exec a t).1 <;> rfl
  exact h

theorem mapError_reading (a : Action τ ε α) (f : α → Except ε β) (g : ε → δ) :
    (a.reading f).mapError g = (a.mapError g).reading fun x => (f x).mapError g := by
  funext t
  have h : exec ((a.reading f).mapError g) t =
      exec ((a.mapError g).reading fun x => (f x).mapError g) t := by
    rw [exec_mapError, exec_reading, exec_reading, exec_mapError]
    cases (exec a t).1 <;> rfl
  exact h

end Relocate.Action
