/-!
# Outcomes of actions

Sessions with an analyser and edits of a program are actions that may fail in the
middle: an action takes a state to a value or an error, and to the state it was in by
then. What a composed action comes to follows from what its parts come to, here once
for all states.
-/

namespace LogicCapture

variable {ε σ α β : Type} {x : EStateM ε σ α} {f : α → EStateM ε σ β} {a b : σ} {error : ε}

/-! ## From the parts to the whole -/

theorem bind_of_ok {value : α} (run : x a = .ok value b) : (x >>= f) a = f value b := by
  change EStateM.bind x f a = _
  rw [EStateM.bind, run]

theorem bind_of_error (run : x a = .error error b) : (x >>= f) a = .error error b := by
  change EStateM.bind x f a = _
  rw [EStateM.bind, run]

theorem map_of_ok {g : α → β} {value : α} (run : x a = .ok value b) :
    (g <$> x) a = .ok (g value) b := by
  change EStateM.map g x a = _
  rw [EStateM.map, run]

theorem map_of_error {g : α → β} (run : x a = .error error b) : (g <$> x) a = .error error b := by
  change EStateM.map g x a = _
  rw [EStateM.map, run]

theorem tryCatch_of_ok {handle : ε → EStateM ε σ α} {value : α} (run : x a = .ok value b) :
    tryCatch x handle a = .ok value b := by
  change EStateM.tryCatch x handle a = _
  delta EStateM.tryCatch
  dsimp only
  rw [run]

theorem tryCatch_of_error {handle : ε → EStateM ε σ α} (run : x a = .error error b) :
    tryCatch x handle a = handle error b := by
  change EStateM.tryCatch x handle a = _
  delta EStateM.tryCatch
  dsimp only
  rw [run]
  rfl

/-! ## From the whole to the parts -/

theorem ok_of_bind {value : β} (run : (x >>= f) a = .ok value b) :
    ∃ between c, x a = .ok between c ∧ f between c = .ok value b := by
  cases first : x a with
  | ok between c => exact ⟨between, c, rfl, (bind_of_ok first).symm.trans run⟩
  | error e c => cases (bind_of_error first).symm.trans run

theorem error_of_bind (run : (x >>= f) a = .error error b) :
    x a = .error error b ∨ ∃ between c, x a = .ok between c ∧ f between c = .error error b := by
  cases first : x a with
  | ok between c => exact .inr ⟨between, c, rfl, (bind_of_ok first).symm.trans run⟩
  | error e c =>
    rw [bind_of_error first] at run
    obtain ⟨rfl, rfl⟩ := EStateM.Result.error.inj run
    exact .inl rfl

theorem ok_of_map {g : α → β} {value : β} (run : (g <$> x) a = .ok value b) :
    ∃ before, x a = .ok before b ∧ value = g before := by
  rw [map_eq_pure_bind] at run
  obtain ⟨before, c, first, last⟩ := ok_of_bind run
  cases last
  exact ⟨before, first, rfl⟩

theorem ok_of_seqRight {y : EStateM ε σ β} {value : β} (run : (x *> y) a = .ok value b) :
    ∃ between c, x a = .ok between c ∧ y c = .ok value b := by
  rw [seqRight_eq_bind] at run
  exact ok_of_bind run

end LogicCapture
