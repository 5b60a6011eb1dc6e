/-
  When a computation that may fail succeeds, and when it fails: through its first step. Changes of
  its results and of its errors go through the steps one by one. These are simp lemmas, so that
  `simp` takes the computations of the model apart.
-/

namespace Timespan

variable {ε α β : Type}

instance decidableEqExcept [DecidableEq ε] [DecidableEq α] : DecidableEq (Except ε α)
  | .ok a, .ok b => decidable_of_iff (a = b) (by simp)
  | .ok _, .error _ => isFalse (by simp)
  | .error _, .ok _ => isFalse (by simp)
  | .error a, .error b => decidable_of_iff (a = b) (by simp)

@[simp] theorem ok_bind (a : α) (f : α → Except ε β) : (.ok a >>= f : Except ε β) = f a := rfl

@[simp] theorem error_bind (e : ε) (f : α → Except ε β) :
    (.error e >>= f : Except ε β) = .error e := rfl

@[simp] theorem map_ok (a : α) (f : α → β) : (.ok a : Except ε α).map f = .ok (f a) := rfl

@[simp] theorem map_error (e : ε) (f : α → β) : (.error e : Except ε α).map f = .error e := rfl

@[simp] theorem mapError_ok {ε' : Type} (a : α) (f : ε → ε') :
    (.ok a : Except ε α).mapError f = .ok a := rfl

@[simp] theorem mapError_error {ε' : Type} (e : ε) (f : ε → ε') :
    (.error e : Except ε α).mapError f = .error (f e) := rfl

@[simp] theorem bind_eq_ok_iff {x : Except ε α} {f : α → Except ε β} {b : β} :
    (x >>= f) = .ok b ↔ ∃ a, x = .ok a ∧ f a = .ok b := by
  cases x <;> simp [bind, Except.bind]

@[simp] theorem bind_eq_error_iff {x : Except ε α} {f : α → Except ε β} {e : ε} :
    (x >>= f) = .error e ↔ x = .error e ∨ ∃ a, x = .ok a ∧ f a = .error e := by
  cases x <;> simp [bind, Except.bind]

@[simp] theorem map_eq_ok_iff {x : Except ε α} {f : α → β} {b : β} :
    x.map f = .ok b ↔ ∃ a, x = .ok a ∧ f a = b := by
  cases x <;> simp [Except.map]

@[simp] theorem map_eq_error_iff {x : Except ε α} {f : α → β} {e : ε} :
    x.map f = .error e ↔ x = .error e := by
  cases x <;> simp [Except.map]

@[simp] theorem mapError_eq_ok_iff {ε' : Type} {x : Except ε α} {f : ε → ε'} {a : α} :
    x.mapError f = .ok a ↔ x = .ok a := by
  cases x with
  | ok b =>
    constructor <;> rintro ⟨⟩ <;> rfl
  | error e =>
    constructor <;> rintro ⟨⟩

@[simp] theorem mapError_eq_error_iff {ε' : Type} {x : Except ε α} {f : ε → ε'} {e : ε'} :
    x.mapError f = .error e ↔ ∃ a, x = .error a ∧ f a = e := by
  cases x with
  | ok b =>
    constructor
    · rintro ⟨⟩
    · rintro ⟨_, ⟨⟩, -⟩
  | error e' =>
    constructor
    · intro h
      exact ⟨e', rfl, Except.error.inj h⟩
    · rintro ⟨_, ⟨⟩, rfl⟩
      rfl

@[simp] theorem map_bind {γ : Type} (x : Except ε α) (f : α → Except ε β) (g : β → γ) :
    (x >>= f).map g = x >>= fun a => (f a).map g := by
  cases x <;> rfl

@[simp] theorem bind_map {γ : Type} (x : Except ε α) (f : α → β) (g : β → Except ε γ) :
    x.map f >>= g = x >>= fun a => g (f a) := by
  cases x <;> rfl

@[simp] theorem map_map {γ : Type} (x : Except ε α) (f : α → β) (g : β → γ) :
    (x.map f).map g = x.map (g ∘ f) := by
  cases x <;> rfl

@[simp] theorem toOption_eq_some_iff {x : Except ε α} {a : α} :
    x.toOption = some a ↔ x = .ok a := by
  cases x <;> simp [Except.toOption]

theorem isOk_iff {x : Except ε α} : x.isOk = true ↔ ∃ a, x = .ok a := by
  cases x <;> simp [Except.isOk, Except.toBool]

/-! ## Errors translated -/

@[simp] theorem mapError_bind {ε' : Type} (x : Except ε α) (f : α → Except ε β) (g : ε → ε') :
    (x >>= f).mapError g = x.mapError g >>= fun a => (f a).mapError g := by
  cases x <;> rfl

@[simp] theorem mapError_mapError {ε' δ : Type} (x : Except ε α) (g : ε → ε') (g' : ε' → δ) :
    (x.mapError g).mapError g' = x.mapError (g' ∘ g) := by
  cases x <;> rfl

@[simp] theorem mapError_map {ε' : Type} (x : Except ε α) (f : α → β) (g : ε → ε') :
    (x.map f).mapError g = (x.mapError g).map f := by
  cases x <;> rfl

/-! ## Optional arguments -/

@[simp] theorem mapM_map {γ : Type} (a? : Option α) (g : α → β) (f : β → Except ε γ) :
    (a?.map g).mapM f = a?.mapM fun a => f (g a) := by
  cases a? <;> rfl

@[simp] theorem mapM_mapError {ε' : Type} (a? : Option α) (f : α → Except ε β) (g : ε → ε') :
    (a?.mapM f).mapError g = a?.mapM fun a => (f a).mapError g := by
  cases a? with
  | none => rfl
  | some a =>
    simp only [Option.mapM_some]
    cases f a <;> rfl

theorem mapM_some_eq_ok_iff {a : α} {f : α → Except ε β} {b? : Option β} :
    (some a).mapM f = .ok b? ↔ ∃ b, f a = .ok b ∧ some b = b? :=
  map_eq_ok_iff

theorem mapM_some_of_ok {a : α} {f : α → Except ε β} {b : β} (h : f a = .ok b) :
    (some a).mapM f = .ok (some b) :=
  mapM_some_eq_ok_iff.mpr ⟨b, h, rfl⟩

theorem mapM_some_bind {γ : Type} (a : α) (f : α → Except ε β) (g : Option β → Except ε γ) :
    (some a).mapM f >>= g = f a >>= fun b => g (some b) :=
  bind_map (f a) some g

theorem mapM_of_ok {γ : Type} {a? : Option α} {f : α → Except ε β} {f' : α → Except ε γ}
    {g : β → γ} (h : ∀ a b, f a = .ok b → f' a = .ok (g b)) {b? : Option β}
    (hb : a?.mapM f = .ok b?) : a?.mapM f' = .ok (b?.map g) := by
  cases a? with
  | none => cases hb; rfl
  | some a =>
    obtain ⟨b, hfa, rfl⟩ := mapM_some_eq_ok_iff.mp hb
    exact mapM_some_of_ok (h a b hfa)

theorem mapM_of_map {γ : Type} {f : α → Except ε β} {f' : α → Except ε γ} {g : β → γ}
    (h : ∀ a, f' a = (f a).map g) (a? : Option α) :
    a?.mapM f' = (a?.mapM f).map (Option.map g) := by
  cases a? with
  | none => rfl
  | some a =>
    simp only [Option.mapM_some, h]
    cases f a <;> rfl

@[simp] theorem mapM_eq_error_iff {a? : Option α} {f : α → Except ε β} {e : ε} :
    a?.mapM f = .error e ↔ ∃ a, a? = some a ∧ f a = .error e := by
  cases a? with
  | none => simp [pure, Except.pure]
  | some a => simp [Functor.map]

theorem exists_mapM_eq_ok_iff {a? : Option α} {f : α → Except ε β} :
    (∃ b?, a?.mapM f = .ok b?) ↔ ∀ a, a? = some a → ∃ b, f a = .ok b := by
  cases a? with
  | none => simp [pure, Except.pure]
  | some a =>
    constructor
    · rintro ⟨b?, h⟩ _ ⟨⟩
      obtain ⟨b, hb, -⟩ := mapM_some_eq_ok_iff.mp h
      exact ⟨b, hb⟩
    · intro h
      obtain ⟨b, hb⟩ := h a rfl
      exact ⟨some b, mapM_some_eq_ok_iff.mpr ⟨b, hb, rfl⟩⟩

theorem eq_none_iff_of_mapM {a? : Option α} {f : α → Except ε β} {b? : Option β}
    (h : a?.mapM f = .ok b?) : b? = none ↔ a? = none := by
  cases a? with
  | none => cases h; simp
  | some a =>
    obtain ⟨b, -, rfl⟩ := mapM_some_eq_ok_iff.mp h
    simp

theorem eq_some_iff_of_mapM {a? : Option α} {f : α → Except ε β} {b? : Option β}
    (h : a?.mapM f = .ok b?) {b : β} : b? = some b ↔ ∃ a, a? = some a ∧ f a = .ok b := by
  cases a? with
  | none => cases h; simp
  | some a =>
    obtain ⟨b', hb, rfl⟩ := mapM_some_eq_ok_iff.mp h
    simp [hb]

end Timespan
