import LogicCapture.Proofs.Link.Pieces
import LogicCapture.Proofs.Session.Transfers
import LogicCapture.Proofs.Wire.ByteOrder
import Mathlib.Data.List.Forall2

/-!
# Sessions that send frames

A session that only sends is known by its frames: each of them goes out in pieces
of the size that the link takes at that time, until a transfer is at fault. So the
frames of a session are those of its parts, one after the other.
-/

namespace LogicCapture

/-- The moves that send a frame over a link of unit `m`. -/
def frameMoves (m : Nat) (frame : Phase × List UInt8) : List Move :=
  (pieces m frame.2).map fun piece => ⟨frame.1, .send piece⟩

theorem map_ask_frameMoves (m : Nat) (frame : Phase × List UInt8) :
    (frameMoves m frame).map Move.ask = (pieces m frame.2).map Ask.send := by
  rw [frameMoves, List.map_map]
  rfl

namespace Analyser

open Session

variable {σ : Type} [Link σ]

/-- The moves send the frame, cut to the unit that the link has at some time. -/
def CutBy (link : σ) (frame : Phase × List UInt8) (moves : List Move) : Prop :=
  ∃ t, Link.Reaches link t ∧ moves = frameMoves (Link.unit t) frame

/-- From `a` the session sends these frames. It is in the one stage until then,
and in the other at its end. -/
def Delivers {α : Type} (x : Session (Recorded σ) α) (frames : List (Phase × List UInt8))
    (a : Analyser (Recorded σ)) (meanwhile final : Stage) : Prop :=
  ∃ cuts, List.Forall₂ (CutBy a.link.link) frames cuts ∧
    Ends x a (fun made _ b => b.stage = final ∧ Follows cuts.flatten made none)
      (fun made error b => b.stage = meanwhile ∧ Breaks cuts.flatten made error)

section Delivers

variable {α β : Type} {x : Session (Recorded σ) α} {f : α → Session (Recorded σ) β}
  {first second : List (Phase × List UInt8)} {a b : Analyser (Recorded σ)}
  {meanwhile final : Stage}

theorem Delivers.quiet {value : α} (run : x a = .ok value b) (same : b.link = a.link)
    (stage : b.stage = final) : Delivers x [] a meanwhile final :=
  ⟨[], .nil, .quiet run same ⟨stage, .done⟩⟩

theorem Delivers.after_quiet {value : α} (run : x a = .ok value b) (same : b.link = a.link)
    (rest : Delivers (f value) first b meanwhile final) :
    Delivers (x >>= f) first a meanwhile final := by
  obtain ⟨cuts, cutBy, ends⟩ := rest
  exact ⟨cuts, same ▸ cutBy, .after_quiet run same ends⟩

/-- The session sends the one frame, cut as the link takes it at the start. -/
theorem Delivers.of_ends {frame : Phase × List UInt8}
    (ends : Ends x a
      (fun made _ b => b.stage = final ∧ Follows (frameMoves (Link.unit a.link) frame) made none)
      (fun made error b => b.stage = meanwhile ∧
        Breaks (frameMoves (Link.unit a.link) frame) made error)) :
    Delivers x [frame] a meanwhile final := by
  refine ⟨[_], .cons ⟨a.link.link, .refl, rfl⟩ .nil, ?_⟩
  rw [List.flatten_singleton]
  exact ends

theorem Delivers.bind (head : Delivers x first a meanwhile meanwhile)
    (tail : ∀ value b, b.stage = meanwhile → Delivers (f value) second b meanwhile final) :
    Delivers (x >>= f) (first ++ second) a meanwhile final := by
  obtain ⟨cuts, cutBy, ends⟩ := head
  cases run : x a with
  | ok value b =>
    obtain ⟨made, extended, stage, follows⟩ := ends.ok run
    obtain ⟨cuts', cutBy', ends'⟩ := tail value b stage
    have later : List.Forall₂ (CutBy a.link.link) second cuts' := by
      refine cutBy'.imp fun frame moves cut => ?_
      obtain ⟨t, reached, rfl⟩ := cut
      exact ⟨t, extended.replayed.reaches.trans reached, rfl⟩
    refine ⟨cuts ++ cuts', List.rel_append cutBy later, .of_bind run extended ?_⟩
    rw [List.flatten_append]
    refine ends'.imp ?_ ?_
    · exact fun more _ c ⟨stage', follows'⟩ => ⟨stage', follows.append follows'⟩
    · exact fun more error c ⟨stage', breaks⟩ => ⟨stage', breaks.after follows⟩
  | error error b =>
    obtain ⟨made, extended, stage, breaks⟩ := ends.error run
    -- the frames that are not reached might be cut as the link would now
    refine ⟨cuts ++ second.map (frameMoves (Link.unit a.link)), ?_, ?_⟩
    · refine List.rel_append cutBy (List.forall₂_map_right_iff.2 (List.forall₂_same.2 ?_))
      exact fun frame _ => ⟨a.link.link, .refl, rfl⟩
    · rw [List.flatten_append]
      exact .of_error (bind_of_error run) extended ⟨stage, breaks.weaken⟩

/-- Over a link that takes what is sent, a session that only sends goes well. -/
theorem exists_ok_of_willing {moves : List Move} {sent : List (List UInt8)}
    {good bad : Analyser (Recorded σ) → Prop}
    (ends : Ends x a (fun made _ b => good b ∧ Follows moves made none)
      (fun made error b => bad b ∧ Breaks moves made error))
    (sends : moves.map Move.ask = sent.map Ask.send) (willing : Link.Willing a.link.link) :
    ∃ value b, x a = .ok value b := by
  cases run : x a with
  | ok value b => exact ⟨value, b, rfl⟩
  | error error b =>
    obtain ⟨made, extended, -, phase, cause, -, follows⟩ := ends.error run
    cases follows.unbroken extended.replayed willing sends

end Delivers

/-! ## Setting up -/

variable {a : Analyser (Recorded σ)}

theorem sendPieces_ends (phase : Phase) (frame : List UInt8) {stage : Stage}
    (there : a.stage = stage) :
    Ends (sendPieces phase frame) a
      (fun made _ b => b.stage = stage ∧
        Follows (frameMoves (Link.unit a.link) (phase, frame)) made none)
      (fun made error b => b.stage = stage ∧
        Breaks (frameMoves (Link.unit a.link) (phase, frame)) made error) := by
  have send : ∀ (parts : List (List UInt8)) (b : Analyser (Recorded σ)), b.stage = stage →
      Ends (parts.forM fun piece => during phase (Link.send piece)) b
        (fun made _ c => c.stage = stage ∧
          Follows (parts.map fun piece => ⟨phase, .send piece⟩) made none)
        (fun made error c => c.stage = stage ∧
          Breaks (parts.map fun piece => ⟨phase, .send piece⟩) made error) := by
    intro parts
    induction parts with
    | nil => exact fun b there => .pure ⟨there, .done⟩
    | cons piece rest ih =>
      intro b there
      refine (send_ends phase piece b).bind ?_ ?_
      · exact fun _ _ _ ⟨same, breaks⟩ => ⟨same.trans there, breaks.weaken⟩
      · intro made _ c _ sent
        rcases sent with ⟨same, rfl⟩
        refine (ih c (same.trans there)).imp ?_ ?_
        · exact fun _ _ _ ⟨stays, follows⟩ => ⟨stays, .next rfl rfl follows⟩
        · exact fun _ _ _ ⟨stays, breaks⟩ => ⟨stays, breaks.after (.next rfl rfl .done)⟩
  refine .of_eq (sendPieces_eq phase frame a) ((send _ a there).bind (fun _ _ _ bad => bad) ?_)
  intro made _ b _ sent
  rcases sent with ⟨stays, follows⟩
  refine .quiet rfl rfl ⟨stays, ?_⟩
  rwa [List.append_nil]

theorem sendPieces_delivers (phase : Phase) (frame : List UInt8) {stage : Stage}
    (there : a.stage = stage) :
    Delivers (sendPieces phase frame) [(phase, frame)] a stage stage :=
  .of_ends (sendPieces_ends phase frame there)

/-- To load an image is to send its frame, cut as the link takes it at the start. -/
theorem load_ends {image : Image} (same : image.geometry = a.geometry) :
    Ends (load image) a
      (fun made _ b => b.stage = .configuring ∧
        Follows (frameMoves (Link.unit a.link) (.loadTables, image.frame)) made none)
      (fun made error b => b.stage = .configuring ∧
        Breaks (frameMoves (Link.unit a.link) (.loadTables, image.frame)) made error) := by
  obtain ⟨b, entered, link, there⟩ := enter_run .configuring a
  refine .of_eq (load_of_same same) (.after_quiet entered link ?_)
  rw [← link]
  refine (sendPieces_ends .loadTables image.frame there).bind (fun _ _ _ bad => bad) ?_
  intro made _ c _ sent
  rcases sent with ⟨stays, follows⟩
  refine .quiet rfl rfl ⟨stays, ?_⟩
  rwa [List.append_nil]

theorem load_delivers {image : Image} (same : image.geometry = a.geometry) :
    Delivers (load image) [(.loadTables, image.frame)] a .configuring .configuring :=
  .of_ends (load_ends same)

theorem geometry_of_load {b : Analyser (Recorded σ)} {image : Image}
    (run : load image a = .ok () b) :
    image.geometry = a.geometry := by
  apply Decidable.byContradiction
  intro other
  have refused : load image a = .error (.trigger .geometryMismatch) a := by
    change (if image.geometry ≠ a.geometry then _ else _ : Session (Recorded σ) Unit) a = _
    rw [if_pos other]
    rfl
  cases refused.symm.trans run

theorem writeCount_delivers (phase : Phase) (command : Wire.Command) {count : Nat}
    (fits : count ≤ maxSampleCount) {stage : Stage} (there : a.stage = stage) :
    Delivers (writeCount phase command count)
      [(phase, command.code :: Wire.littleEndian 3 count)] a stage stage := by
  unfold writeCount
  rw [Wire.countFrame?_eq fits]
  exact sendPieces_delivers phase _ there

theorem writeControl_delivers (control : Control) {stage : Stage} (there : a.stage = stage) :
    Delivers (writeControl control) [(.writeControl, [0x02, control.bits])] a stage stage :=
  .after_quiet rfl rfl (sendPieces_delivers .writeControl (Wire.controlFrame control) there)

/-! ## Pieces of the frames -/

theorem eq_map_of_forall₂ {α β : Type} {rel : α → β → Prop} {f : α → β} {l : List α} {l' : List β}
    (related : List.Forall₂ rel l l') (only : ∀ x y, rel x y → y = f x) : l' = l.map f := by
  induction related with
  | nil => rfl
  | cons head _ ih => rw [List.map_cons, ← only _ _ head, ← ih]

/-- Over a link of one unit there is one way to cut the frames. -/
theorem eq_frameMoves_of_cutBy {link : σ} {m : Nat} {frames : List (Phase × List UInt8)}
    {cuts : List (List Move)} (steady : Link.Steady m link)
    (cutBy : List.Forall₂ (CutBy link) frames cuts) : cuts = frames.map (frameMoves m) := by
  refine eq_map_of_forall₂ cutBy fun frame moves cut => ?_
  obtain ⟨t, reached, rfl⟩ := cut
  rw [steady t reached]

/-- Moves that send frames as the link takes them send each of them in pieces. -/
theorem exists_pieces_of_cutBy {link : σ} {frames : List (Phase × List UInt8)}
    {cuts : List (List Move)} (cutBy : List.Forall₂ (CutBy link) frames cuts) :
    ∃ sent, List.Forall₂ (fun frame parts => ∃ t, Link.Reaches link t ∧
        parts = pieces (Link.unit t) frame) (frames.map Prod.snd) sent ∧
      cuts.flatten.map Move.ask = sent.flatten.map Ask.send := by
  induction cutBy with
  | nil => exact ⟨[], .nil, rfl⟩
  | @cons frame moves frames cuts cut _ ih =>
    obtain ⟨t, reached, rfl⟩ := cut
    obtain ⟨sent, cuts_sent, asks⟩ := ih
    refine ⟨pieces (Link.unit t) frame.2 :: sent, .cons ⟨t, reached, rfl⟩ cuts_sent, ?_⟩
    rw [List.flatten_cons, List.flatten_cons, List.map_append, List.map_append, asks,
      map_ask_frameMoves]

end Analyser

end LogicCapture
