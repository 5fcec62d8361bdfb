import LogicCapture.Proofs.Session.Correspondence

/-!
# Agreement of sessions

Two sessions agree if from analysers that only differ in their logs they come to
the same value or the same error, and to analysers that only differ in their logs
again. The links need not be of one type: it is enough that they are in a relation
which transfers keep, and under which they give the same results. Agreement goes
through binds, so sessions of the same transfers agree whatever else they note.
-/

namespace LogicCapture

/-- Links in the relation cannot be told apart: transfers have the same results on
them, and leave them in the relation. -/
structure Link.Congruence {σ τ : Type} [Link σ] [Link τ] (rel : σ → τ → Prop) : Prop where
  unit {s t} : rel s t → Link.unit s = Link.unit t
  send {s t} (bytes : List UInt8) : rel s t →
    (Link.send bytes s).result = (Link.send bytes t).result ∧
      rel (Link.send bytes s).link (Link.send bytes t).link
  receive {s t} (asked : Nat) : rel s t →
    (Link.receive asked s).result = (Link.receive asked t).result ∧
      rel (Link.receive asked s).link (Link.receive asked t).link

theorem Link.congruence_eq {σ : Type} [Link σ] : Link.Congruence (Eq : σ → σ → Prop) where
  unit same := same ▸ rfl
  send _ same := same ▸ ⟨rfl, rfl⟩
  receive _ same := same ▸ ⟨rfl, rfl⟩

/-- To keep a record makes no difference to a link. -/
theorem Link.congruence_recorded {σ : Type} [Link σ] :
    Link.Congruence (fun (r : Recorded σ) (s : σ) => r.link = s) where
  unit same := same ▸ rfl
  send _ same := same ▸ ⟨rfl, rfl⟩
  receive _ same := same ▸ ⟨rfl, rfl⟩

namespace Session

variable {σ τ α β : Type} {rel : σ → τ → Prop}

/-- Nothing but the logs need differ, and the links only as far as `rel` allows. -/
structure Alike (rel : σ → τ → Prop) (a : Analyser σ) (b : Analyser τ) : Prop where
  link : rel a.link b.link
  version : a.version = b.version
  geometry : a.geometry = b.geometry
  stage : a.stage = b.stage

/-- The same value or the same error, and analysers that are alike. -/
inductive AlikeResults (rel : σ → τ → Prop) : EStateM.Result AnalyserError (Analyser σ) α →
    EStateM.Result AnalyserError (Analyser τ) α → Prop
  | ok {a : Analyser σ} {b : Analyser τ} (value : α) :
    Alike rel a b → AlikeResults rel (.ok value a) (.ok value b)
  | error {a : Analyser σ} {b : Analyser τ} (error : AnalyserError) :
    Alike rel a b → AlikeResults rel (.error error a) (.error error b)

theorem Alike.imp {rel' : σ → τ → Prop} {a : Analyser σ} {b : Analyser τ}
    (alike : Alike rel a b) (link : rel' a.link b.link) : Alike rel' a b :=
  ⟨link, alike.version, alike.geometry, alike.stage⟩

theorem AlikeResults.refl (result : EStateM.Result AnalyserError (Analyser σ) α) :
    AlikeResults Eq result result := by
  cases result with
  | ok value b => exact .ok value ⟨rfl, rfl, rfl, rfl⟩
  | error error b => exact .error error ⟨rfl, rfl, rfl, rfl⟩

theorem AlikeResults.ok_of_eq {a : Analyser σ} {b : Analyser τ} {value value' : α}
    (same : value = value') (alike : Alike rel a b) :
    AlikeResults rel (.ok value a) (.ok value' b) :=
  same ▸ .ok value alike

theorem AlikeResults.of_ok {a : Analyser σ} {value : α}
    {result : EStateM.Result AnalyserError (Analyser τ) α}
    (results : AlikeResults rel (.ok value a) result) :
    ∃ b, result = .ok value b ∧ Alike rel a b := by
  cases results with
  | ok _ alike => exact ⟨_, rfl, alike⟩

theorem AlikeResults.of_error {a : Analyser σ} {error : AnalyserError}
    {result : EStateM.Result AnalyserError (Analyser τ) α}
    (results : AlikeResults rel (.error error a) result) :
    ∃ b, result = .error error b ∧ Alike rel a b := by
  cases results with
  | error _ alike => exact ⟨_, rfl, alike⟩

/-- From analysers that are alike the sessions come to results that are. -/
def Agree (rel : σ → τ → Prop) (x : Session σ α) (y : Session τ α) : Prop :=
  ∀ a b, Alike rel a b → AlikeResults rel (x a) (y b)

variable {x : Session σ α} {y : Session τ α} {f : α → Session σ β} {g : α → Session τ β}

theorem Agree.pure (value : α) :
    Agree rel (Pure.pure value : Session σ α) (Pure.pure value : Session τ α) :=
  fun _ _ alike => .ok value alike

theorem Agree.throw (error : AnalyserError) :
    Agree rel (throw error : Session σ α) (throw error : Session τ α) :=
  fun _ _ alike => .error error alike

theorem Agree.bind (first : Agree rel x y) (second : ∀ value, Agree rel (f value) (g value)) :
    Agree rel (x >>= f) (y >>= g) := by
  intro a b alike
  have results := first a b alike
  generalize left : x a = l at results
  generalize right : y b = r at results
  cases results with
  | ok value alike' =>
    rw [bind_of_ok left, bind_of_ok right]
    exact second value _ _ alike'
  | error error alike' =>
    rw [bind_of_error left, bind_of_error right]
    exact .error error alike'

theorem Agree.map (fn : α → β) (agree : Agree rel x y) : Agree rel (fn <$> x) (fn <$> y) := by
  rw [map_eq_pure_bind, map_eq_pure_bind]
  exact agree.bind fun value => .pure (fn value)

theorem Agree.tryCatch {handle : AnalyserError → Session σ α}
    {handle' : AnalyserError → Session τ α} (first : Agree rel x y)
    (second : ∀ error, Agree rel (handle error) (handle' error)) :
    Agree rel (tryCatch x handle) (tryCatch y handle') := by
  intro a b alike
  have results := first a b alike
  generalize left : x a = l at results
  generalize right : y b = r at results
  cases results with
  | ok value alike' =>
    rw [tryCatch_of_ok left, tryCatch_of_ok right]
    exact .ok value alike'
  | error error alike' =>
    rw [tryCatch_of_error left, tryCatch_of_error right]
    exact second error _ _ alike'

/-- A line in the log of one of them makes no difference. -/
theorem Agree.note_left {z : Session σ α} (line : LogLine) (agree : Agree rel z y) :
    Agree rel (Analyser.note line >>= fun _ => z) y :=
  fun a b alike => agree { a with log := line :: a.log } b
    ⟨alike.link, alike.version, alike.geometry, alike.stage⟩

end Session

/-! ## Sessions that agree with themselves -/

namespace Analyser

open Session

variable {σ τ : Type} {rel : σ → τ → Prop}

theorem noteAll_agree (lines : List LogLine) :
    Agree rel (noteAll lines : Session σ Unit) (noteAll lines : Session τ Unit) :=
  fun _ _ alike => .ok () ⟨alike.link, alike.version, alike.geometry, alike.stage⟩

theorem enter_agree (stage : Stage) :
    Agree rel (enter stage : Session σ Unit) (enter stage : Session τ Unit) := by
  intro a b alike
  have left : enter stage a = .ok () (if a.stage = stage then a
      else { a with stage, log := .stageChanged a.stage stage :: a.log }) := rfl
  have right : enter stage b = .ok () (if b.stage = stage then b
      else { b with stage, log := .stageChanged b.stage stage :: b.log }) := rfl
  rw [left, right, alike.stage]
  split
  · exact .ok () alike
  · exact .ok () ⟨alike.link, alike.version, alike.geometry, rfl⟩

theorem version_agree : Agree rel (version <$> get : Session σ (Option UInt8))
    (version <$> get : Session τ (Option UInt8)) :=
  fun _ _ alike => .ok_of_eq alike.version alike

theorem geometry_agree : Agree rel (geometry <$> get : Session σ Geometry)
    (geometry <$> get : Session τ Geometry) :=
  fun _ _ alike => .ok_of_eq alike.geometry alike

theorem setVersion_agree (version : Option UInt8) :
    Agree rel (modify fun a => { a with version } : Session σ Unit)
      (modify fun a => { a with version } : Session τ Unit) :=
  fun _ _ alike => .ok () ⟨alike.link, rfl, alike.geometry, alike.stage⟩

theorem setGeometry_agree (geometry : Geometry) :
    Agree rel (modify fun a => { a with geometry } : Session σ Unit)
      (modify fun a => { a with geometry } : Session τ Unit) :=
  fun _ _ alike => .ok () ⟨alike.link, alike.version, rfl, alike.stage⟩

theorem renew_agree : Agree rel (renew : Session σ Unit) (renew : Session τ Unit) :=
  fun _ _ alike => .ok () ⟨alike.link, rfl, rfl, rfl⟩

theorem during_agree {α : Type} (phase : Phase) {transfer : σ → Transfer σ α}
    {transfer' : τ → Transfer τ α} (same : ∀ {s t}, rel s t →
      (transfer s).result = (transfer' t).result ∧ rel (transfer s).link (transfer' t).link) :
    Agree rel (during phase transfer) (during phase transfer') := by
  intro a b alike
  obtain ⟨results, links⟩ := same alike.link
  cases result : (transfer a.link).result with
  | ok value =>
    rw [during_of_ok result, during_of_ok (results ▸ result)]
    exact .ok value ⟨links, alike.version, alike.geometry, alike.stage⟩
  | error cause =>
    rw [during_of_error result, during_of_error (results ▸ result)]
    exact .error _ ⟨links, alike.version, alike.geometry, alike.stage⟩

variable [Link σ] [Link τ]

section Congruence

variable (congruence : Link.Congruence rel)
include congruence

/-- Over links that cannot be told apart every session agrees with itself. -/
theorem agree_corresponds : Correspondence (σ := σ) (τ := τ) (Agree rel) where
  pure := .pure
  throw := .throw
  bind := .bind
  tryCatch := .tryCatch
  noteAll := noteAll_agree
  enter := enter_agree
  version := version_agree
  geometry := geometry_agree
  setVersion := setVersion_agree
  setGeometry := setGeometry_agree
  renew := renew_agree
  transferUnit := fun _ _ alike => .ok_of_eq (congruence.unit alike.link) alike
  send := fun phase bytes => during_agree phase (congruence.send bytes)
  receive := fun phase length => during_agree phase (congruence.receive length)

theorem poll_agree : Agree rel (poll : Session σ Status) (poll : Session τ Status) :=
  (agree_corresponds congruence).poll

theorem readReading_agree (settings : Settings) :
    Agree rel (readReading settings : Session σ Reading)
      (readReading settings : Session τ Reading) :=
  (agree_corresponds congruence).readReading settings

/-- To wait under a timeout that is not reached is to wait. -/
theorem pollInTime_agree {elapsed : Nat → Nat} {timeout : Nat}
    (in_time : ∀ look, elapsed look < timeout) (limit : Nat) (before : Option Status)
    (look : Nat) : Agree rel (pollUntilDone limit before : Session σ Bool)
      (pollInTime elapsed timeout limit look : Session τ Bool) := by
  induction limit generalizing before look with
  | zero => exact .pure false
  | succ limit ih =>
    refine (poll_agree congruence).bind fun status => ?_
    -- the clock is looked at in vain, and a status that is noted makes no difference
    have rest : Agree rel
        (if status = .done then pure true else pollUntilDone limit (some status))
        (if status = .done then pure true
          else if timeout ≤ elapsed look then
            throw (.captureTimeout (elapsed (look + 1)) status)
          else pollInTime elapsed timeout limit (look + 1) : Session τ Bool) := by
      rw [if_neg (Nat.not_le_of_lt (in_time look))]
      split
      · exact .pure true
      · exact ih (some status) (look + 1)
    dsimp only
    split
    · exact rest
    · exact rest.note_left _

end Congruence

end Analyser

end LogicCapture
