import LogicCapture.Analyser.Handle
import LogicCapture.Proofs.Actions

/-!
# Runs of sessions

A session takes an analyser to an outcome. `Session.after` forgets which
outcome it was and keeps the analyser; an invariant is kept by a session if it
is handed on from every analyser to the one after the session. The invariants
of interest look at the link alone, so notes in the log, changes of stage and
the like keep all of them; only transfers have to be looked at one by one.
-/

namespace LogicCapture

namespace Session

variable {σ α β : Type} {x : Session σ α} {f : α → Session σ β} {a b : Analyser σ}

/-! ## Outcomes -/

/-- The analyser after a session, whether the session failed or not. -/
def after (x : Session σ α) (a : Analyser σ) : Analyser σ :=
  match x a with
  | .ok _ b | .error _ b => b

theorem after_of_ok {value : α} (run : x a = .ok value b) : after x a = b := by
  rw [after, run]

theorem after_of_error {error : AnalyserError} (run : x a = .error error b) : after x a = b := by
  rw [after, run]

/-- A map over the value does not touch the analyser. -/
theorem after_map (g : α → β) (x : Session σ α) (a : Analyser σ) :
    after (g <$> x) a = after x a := by
  unfold after
  change (match EStateM.map g x a with | .ok _ b | .error _ b => b) = _
  unfold EStateM.map
  cases x a <;> rfl

/-! ## Invariants -/

/-- The session hands on the invariant. -/
def Keeps (inv : Analyser σ → Prop) (x : Session σ α) : Prop := ∀ a, inv a → inv (after x a)

variable {inv : Analyser σ → Prop}

theorem Keeps.pure (value : α) : Keeps inv (Pure.pure value : Session σ α) := fun _ holds => holds

theorem Keeps.throw (error : AnalyserError) : Keeps inv (throw error : Session σ α) :=
  fun _ holds => holds

theorem Keeps.modify {change : Analyser σ → Analyser σ} (kept : ∀ a, inv a → inv (change a)) :
    Keeps inv (modify change : Session σ Unit) :=
  kept

theorem Keeps.bind (first : Keeps inv x) (second : ∀ value, Keeps inv (f value)) :
    Keeps inv (x >>= f) := by
  intro a holds
  have between := first a holds
  cases run : x a with
  | ok value b =>
    rw [after_of_ok run] at between
    have last := second value b between
    rw [after] at last ⊢
    rwa [bind_of_ok run]
  | error error b =>
    rw [after_of_error run] at between
    rwa [after_of_error (bind_of_error run)]

theorem Keeps.tryCatch {handle : AnalyserError → Session σ α} (first : Keeps inv x)
    (second : ∀ error, Keeps inv (handle error)) : Keeps inv (tryCatch x handle) := by
  intro a holds
  have between := first a holds
  cases run : x a with
  | ok value b =>
    rw [after_of_ok run] at between
    rwa [after_of_ok (tryCatch_of_ok run)]
  | error error b =>
    rw [after_of_error run] at between
    have last := second error b between
    rw [after] at last ⊢
    rwa [tryCatch_of_error run]

theorem Keeps.map {g : α → β} (kept : Keeps inv x) : Keeps inv (g <$> x) := by
  intro a holds
  rw [after_map]
  exact kept a holds

theorem Keeps.seqRight {y : Session σ β} (first : Keeps inv x) (second : Keeps inv y) :
    Keeps inv (x *> y) := by
  rw [seqRight_eq_bind]
  exact first.bind fun _ => second

theorem Keeps.forM {items : List β} {g : β → Session σ Unit}
    (each : ∀ item ∈ items, Keeps inv (g item)) : Keeps inv (items.forM g) := by
  induction items with
  | nil => exact .pure ()
  | cons item rest ih =>
    exact (each item List.mem_cons_self).bind fun _ =>
      ih fun other mem => each other (List.mem_cons_of_mem _ mem)

/-- A session that looks at the analyser looks at one with the invariant. -/
theorem Keeps.get_bind {g : Analyser σ → Session σ β}
    (kept : ∀ a, inv a → inv (after (g a) a)) : Keeps inv (get >>= g) :=
  kept

end Session

/-! ## Sessions that look at the analyser -/

namespace Analyser

variable {σ : Type} [Link σ] {a : Analyser σ}

theorem sendPieces_eq (phase : Phase) (frame : List UInt8) (a : Analyser σ) :
    sendPieces phase frame a = (do
      (pieces (Link.unit a.link) frame).forM fun piece => during phase (Link.send piece)
      note (.sent frame.length phase) : Session σ Unit) a :=
  rfl

theorem readSamples_of_carries {count : Nat} (carries : 2 ≤ Link.unit a.link) :
    readSamples count a = (do
      enter .readingBack
      let samples ← requestSamples (min (Link.unit a.link / 2) 0x7FFF) (by omega) count
      note (.readBack samples.length)
      enter .idle
      return samples : Session σ (List UInt16)) a := by
  change (if carries : 2 ≤ Link.unit a.link then _ else _ : Session σ (List UInt16)) a = _
  rw [dif_pos carries]

theorem readSamples_of_small {count : Nat} (small : Link.unit a.link < 2) :
    readSamples count a = .error (.unitTooSmall (Link.unit a.link)) a := by
  change (if carries : 2 ≤ Link.unit a.link then _ else _ : Session σ (List UInt16)) a = _
  rw [dif_neg (Nat.not_le_of_lt small)]
  rfl

/-- An image for the geometry of the analyser is not refused. -/
theorem load_of_same {image : Image} (same : image.geometry = a.geometry) :
    load image a = (do
      enter .configuring
      sendPieces .loadTables image.frame
      note (.loaded image.words.length) : Session σ Unit) a := by
  change (if image.geometry ≠ a.geometry then _ else _ : Session σ Unit) a = _
  rw [if_neg (fun other => other same)]

end Analyser

/-! ## Invariants of the link -/

namespace Analyser

open Session

variable {σ : Type} {inv : σ → Prop}

theorem keeps_modify {change : Analyser σ → Analyser σ}
    (same : ∀ a, (change a).link = a.link) :
    Keeps (inv ·.link) (modify change : Session σ Unit) :=
  .modify fun a holds => (same a).symm ▸ holds

theorem keeps_note (line : LogLine) : Keeps (inv ·.link) (note line) :=
  keeps_modify fun _ => rfl

theorem keeps_enter (stage : Stage) : Keeps (inv ·.link) (enter stage) := by
  refine keeps_modify fun a => ?_
  split
  · rfl
  · rfl

theorem keeps_renew : Keeps (inv ·.link) (renew : Session σ Unit) :=
  keeps_modify fun _ => rfl

theorem after_enter (stage : Stage) (a : Analyser σ) : after (enter stage) a =
    if a.stage = stage then a else { a with stage, log := .stageChanged a.stage stage :: a.log } :=
  rfl

/-- To go to a stage leaves all else but the log as it was. -/
theorem enter_run (stage : Stage) (a : Analyser σ) :
    ∃ b, enter stage a = .ok () b ∧ b.link = a.link ∧ b.stage = stage := by
  have run : enter stage a = .ok () (if a.stage = stage then a
      else { a with stage, log := .stageChanged a.stage stage :: a.log }) := rfl
  split at run
  · next there => exact ⟨a, run, rfl, there⟩
  · exact ⟨_, run, rfl, rfl⟩

section During

variable {α : Type} {phase : Phase} {transfer : σ → Transfer σ α} {a : Analyser σ}

theorem during_of_ok {value : α} (result : (transfer a.link).result = .ok value) :
    during phase transfer a = .ok value { a with
      link := (transfer a.link).link
      log := ((transfer a.link).accepted.map .accepted).reverse ++ a.log } := by
  unfold during
  simp only [result]

theorem during_of_error {cause : LinkError} (result : (transfer a.link).result = .error cause) :
    during phase transfer a = .error (.link phase cause) { a with
      link := (transfer a.link).link
      log := ((transfer a.link).accepted.map .accepted).reverse ++ a.log } := by
  unfold during
  simp only [result]

end During

/-- A phase leaves the link as its transfer does, and notes the parts taken. -/
theorem after_during {α : Type} (phase : Phase) (transfer : σ → Transfer σ α)
    (a : Analyser σ) : after (during phase transfer) a = { a with
      link := (transfer a.link).link
      log := ((transfer a.link).accepted.map .accepted).reverse ++ a.log } := by
  cases result : (transfer a.link).result with
  | ok value => exact after_of_ok (during_of_ok result)
  | error cause => exact after_of_error (during_of_error result)

theorem keeps_during {α : Type} {phase : Phase} {transfer : σ → Transfer σ α}
    (kept : ∀ link, inv link → inv (transfer link).link) :
    Keeps (inv ·.link) (during phase transfer) := by
  intro a holds
  rw [after_during]
  exact kept a.link holds

end Analyser

end LogicCapture
