import LogicCapture.Proofs.Link.Pieces
import LogicCapture.Proofs.Session.Transfers
import LogicCapture.Proofs.Wire.ByteOrder
import LogicCapture.Proofs.Wire.Samples

/-!
# Reading back

Samples are asked for in requests of whole samples, as many as the link moves and
the request can say. What a session that reads samples back gives is decoded from
the replies on record. Over a link that serves a stream these replies are the
pieces of the stream, so that the samples do not depend on the size of the
requests.
-/

namespace LogicCapture

namespace Analyser

open Session

variable {σ : Type} [Link σ]

/-- The moves that ask for `length` bytes of samples. -/
def bufferMoves (length : Nat) : List Move :=
  requestMoves .readBuffer (0x83 :: Wire.littleEndian 2 length) length

/-- The transfers that bring bytes of samples. -/
def bufferRead (bytes : List UInt8) : List Exchange :=
  [.sent (0x83 :: Wire.littleEndian 2 bytes.length) (.ok ()),
    .received bytes.length (.ok bytes)]

theorem bufferRead_follows (bytes : List UInt8) :
    Follows (bufferMoves bytes.length) (bufferRead bytes) none :=
  .next rfl rfl (.next rfl (Exchange.fault?_received_ok rfl) .done)

/-- Samples are asked for in pieces that are full but for the last one. The
samples are those in the replies. -/
theorem requestSamples_ends {most : Nat} (some_fit : 0 < most) (sayable : most ≤ 0x7FFF)
    (missing : Nat) (a : Analyser (Recorded σ)) :
    Ends (requestSamples most some_fit missing) a
      (fun made samples b => b.stage = a.stage ∧ ∃ parts : List (List UInt8),
        parts.map List.length = pieceLengths (2 * most) (2 * missing) ∧
          made = parts.flatMap bufferRead ∧ samples = Wire.samples parts.flatten)
      (fun made error b => b.stage = a.stage ∧
        Breaks ((pieceLengths (2 * most) (2 * missing)).flatMap bufferMoves) made error) := by
  induction missing using Nat.strongRecOn generalizing a with
  | ind missing ih =>
    rw [requestSamples]
    split
    · next none_left =>
      refine .pure ⟨rfl, [], ?_, rfl, rfl⟩
      rw [none_left, Nat.mul_zero, pieceLengths_zero]
      rfl
    · next left =>
      have count : 2 * min most missing = min (2 * most) (2 * missing) := by omega
      have behind : 2 * (missing - min most missing) =
          2 * missing - min (2 * most) (2 * missing) := by omega
      have frame : Wire.bufferFrame (UInt16.ofNat (2 * min most missing)) =
          0x83 :: Wire.littleEndian 2 (2 * min most missing) := by
        rw [Wire.bufferFrame, Wire.pairBytes_eq (by omega)]
        rfl
      have lengths : pieceLengths (2 * most) (2 * missing) = 2 * min most missing ::
          pieceLengths (2 * most) (2 * (missing - min most missing)) := by
        rw [count, behind]
        exact pieceLengths_of_pos (by omega) (by omega)
      dsimp only
      rw [lengths, List.flatMap_cons, frame]
      refine (request_ends _ _ _ a).bind (fun _ _ _ ⟨stage, breaks⟩ => ⟨stage, breaks.weaken⟩) ?_
      intro made bytes b _ requested
      rcases requested with ⟨stage, length, rfl⟩
      have went := bufferRead_follows bytes
      unfold bufferRead at went
      rw [length] at went
      refine (ih _ (by omega) b).bind ?_ ?_
      · exact fun _ _ _ ⟨stage', breaks⟩ => ⟨stage'.trans stage, breaks.after went⟩
      · intro more rest c _ read
        rcases read with ⟨stage', parts, lengths', rfl, rfl⟩
        refine .pure ⟨stage'.trans stage, bytes :: parts, ?_, ?_, ?_⟩
        · rw [List.map_cons, length, lengths']
        · rw [List.append_nil, List.flatMap_cons, bufferRead, length]
        · rw [List.flatten_cons, Wire.samples_append (length ▸ Nat.dvd_mul_right 2 _)]

theorem bufferReads_follow (parts : List (List UInt8)) :
    Follows ((parts.map List.length).flatMap bufferMoves) (parts.flatMap bufferRead) none := by
  induction parts with
  | nil => exact .done
  | cons part rest ih => exact (bufferRead_follows part).append ih

theorem flatMap_bufferRead_injective :
    Function.Injective fun parts : List (List UInt8) => parts.flatMap bufferRead := by
  intro parts
  induction parts with
  | nil =>
    intro others same
    rcases others with _ | ⟨part, rest⟩
    · rfl
    · cases same
  | cons part rest ih =>
    intro others same
    rcases others with _ | ⟨part', rest'⟩
    · cases same
    · have replies : Exchange.received part.length (.ok part) =
          .received part'.length (.ok part') := (List.cons.inj (List.cons.inj same).2).1
      have part_eq : part = part' := Except.ok.inj (Exchange.received.inj replies).2
      have rest_eq : rest = rest' := ih (List.cons.inj (List.cons.inj same).2).2
      rw [part_eq, rest_eq]

/-- The most bytes that one request for samples asks for over a link of unit `m`:
whole samples, and no more than the request can say. -/
def requestUnit (m : Nat) : Nat := min (2 * (m / 2)) 65534

/-- The lengths of the requests that read `count` samples. -/
def requestLengths (m count : Nat) : List Nat := pieceLengths (requestUnit m) (2 * count)

theorem readSamples_ends (count : Nat) (a : Analyser (Recorded σ)) :
    Ends (readSamples count) a
      (fun made samples b => 2 ≤ Link.unit a.link ∧ b.stage = .idle ∧ ∃ parts : List (List UInt8),
        parts.map List.length = requestLengths (Link.unit a.link) count ∧
          made = parts.flatMap bufferRead ∧ samples = Wire.samples parts.flatten)
      (fun made error b =>
        (Link.unit a.link < 2 ∧ error = .unitTooSmall (Link.unit a.link) ∧ made = [] ∧ b = a) ∨
        (2 ≤ Link.unit a.link ∧ b.stage = .readingBack ∧
          Breaks ((requestLengths (Link.unit a.link) count).flatMap bufferMoves) made error)) := by
  rcases Nat.lt_or_ge (Link.unit a.link) 2 with small | carries
  · exact .of_error (readSamples_of_small small) (.nil rfl) (.inl ⟨small, rfl, rfl, rfl⟩)
  · have unit : 2 * min (Link.unit a.link / 2) 0x7FFF = requestUnit (Link.unit a.link) := by
      rw [requestUnit]
      omega
    refine .of_eq (readSamples_of_carries carries) ?_
    obtain ⟨b, entered, link, stage⟩ := enter_run .readingBack a
    refine .after_quiet entered link ?_
    have some_fit : 0 < min (Link.unit a.link / 2) 0x7FFF := by omega
    have requests := requestSamples_ends some_fit (Nat.min_le_right _ _) count b
    rw [unit] at requests
    refine requests.bind ?_ ?_
    · exact fun made error c ⟨same, breaks⟩ => .inr ⟨carries, same.trans stage, breaks⟩
    · intro made samples c _ read
      rcases read with ⟨-, parts, lengths, rfl, rfl⟩
      obtain ⟨d, entered, link, idle⟩ := enter_run .idle
        { c with log := .readBack (Wire.samples parts.flatten).length :: c.log }
      refine .after_quiet rfl rfl (.after_quiet entered link (.pure ?_))
      exact ⟨carries, idle, parts, lengths, List.append_nil _, rfl⟩

theorem readReading_ends (settings : Settings) (a : Analyser (Recorded σ)) :
    Ends (readReading settings) a
      (fun made reading b => b.stage = .idle ∧ ∃ parts : List (List UInt8),
        parts.map List.length = requestLengths (Link.unit a.link) settings.length ∧
          made = parts.flatMap bufferRead ∧
          reading = .ofSettings (Wire.samples parts.flatten) settings)
      (fun made error b =>
        (Link.unit a.link < 2 ∧ error = .unitTooSmall (Link.unit a.link) ∧ made = [] ∧ b = a) ∨
        (2 ≤ Link.unit a.link ∧ b.stage = .readingBack ∧
          Breaks ((requestLengths (Link.unit a.link) settings.length).flatMap bufferMoves)
            made error)) := by
  refine (readSamples_ends settings.length a).bind (fun _ _ _ bad => bad) ?_
  intro made samples b _ read
  rcases read with ⟨-, idle, parts, lengths, rfl, rfl⟩
  exact .pure ⟨idle, parts, lengths, List.append_nil _, rfl⟩

/-- A link that serves a stream answers the requests with the pieces of it. -/
theorem served_follows {m chunk : Nat} {t u : σ} {stream : List UInt8} {made : List Exchange}
    {stop : Option (Phase × LinkError)} (some_fit : 0 < chunk)
    (moved : chunk ≤ m) (serves : Link.Serves m t stream)
    (follows : Follows ((pieceLengths chunk stream.length).flatMap bufferMoves) made stop)
    (replayed : Link.Replays t made u) :
    stop = none ∧ made = (pieces chunk stream).flatMap bufferRead := by
  generalize length : stream.length = total at follows
  induction total using Nat.strongRecOn generalizing stream t made with
  | ind total ih =>
    subst length
    rcases Nat.eq_zero_or_pos stream.length with empty | left
    · rw [empty, pieceLengths_zero] at follows
      obtain rfl := List.eq_nil_of_length_eq_zero empty
      cases follows
      rw [pieces]
      exact ⟨rfl, rfl⟩
    · -- one request takes the front of the stream, the others what is behind it
      have first : (stream.take chunk).length = min chunk stream.length := List.length_take
      have behind : (stream.drop chunk).length = stream.length - min chunk stream.length := by
        rw [List.length_drop]
        omega
      rw [pieceLengths_of_pos some_fit left, ← first, List.flatMap_cons] at follows
      have split : Link.Serves m t (stream.take chunk ++ stream.drop chunk) := by
        rwa [List.take_append_drop]
      obtain ⟨taken, ready⟩ := split.takes (0x83 :: Wire.littleEndian 2 (stream.take chunk).length)
      obtain ⟨given, after⟩ := ready.gives (by omega)
      obtain ⟨_, rfl, follows, replayed⟩ := follows.sent replayed taken
      obtain ⟨rest, rfl, follows, replayed⟩ := follows.received replayed given rfl
      rw [first, ← behind] at follows
      obtain ⟨unbroken, rfl⟩ := ih _ (by omega) after replayed rfl follows
      rw [pieces_of_ne_nil some_fit (List.ne_nil_of_length_pos left)]
      exact ⟨unbroken, rfl⟩

/-- A stream in the parts that a link of unit `m` is asked for: as few as there
can be, all of them full but the last, none of them empty or ending inside a
sample, and of a length that the request says. -/
structure Requested (m : Nat) (stream : List UInt8) (parts : List (List UInt8)) : Prop where
  whole : parts.flatten = stream
  total : (parts.map List.length).sum = stream.length
  number : parts.length = (stream.length + requestUnit m - 1) / requestUnit m
  full : ∀ part ∈ parts.dropLast, part.length = requestUnit m
  nonempty : ∀ part ∈ parts, part.length ≠ 0
  even : ∀ part ∈ parts, 2 ∣ part.length
  fits : ∀ part ∈ parts, part.length ≤ min m 65534
  said : ∀ part ∈ parts, Wire.ofLittleEndian (Wire.littleEndian 2 part.length) = part.length

theorem requested_pieces {m : Nat} {stream : List UInt8} (carries : 2 ≤ m)
    (samples : 2 ∣ stream.length) : Requested m stream (pieces (requestUnit m) stream) := by
  have some_fit : 0 < requestUnit m := by
    rw [requestUnit]
    omega
  have cut := cut_pieces (requestUnit m) stream
  have one : max (requestUnit m) 1 = requestUnit m := Nat.max_eq_left some_fit
  have number := cut.number
  rw [one] at number
  have fits : ∀ part ∈ pieces (requestUnit m) stream, part.length ≤ min m 65534 := by
    intro part mem
    have part_le := cut.fits part mem
    rw [one, requestUnit] at part_le
    omega
  refine ⟨cut.whole, ?_, number, fun part => length_of_mem_dropLast_pieces some_fit,
    fun part mem => ?_, fun part => dvd_length_of_mem_pieces some_fit ?_ samples, fits,
    fun part mem => ?_⟩
  · rw [← List.length_flatten, cut.whole]
  · exact Nat.pos_iff_ne_zero.1 (List.length_pos_iff.2 (cut.nonempty part mem))
  · rw [requestUnit]
    omega
  · have part_le := fits part mem
    exact Wire.ofLittleEndian_littleEndian (by omega)

/-- Reading back is exact. Whatever link serves the samples, and whatever unit
it moves them in, the samples are those of the stream; they are asked for in the
parts that the unit admits, and the analyser is idle afterwards. A link that
moves no whole sample is left alone. -/
theorem readSamples_exact (count : Nat) :
    (∀ stream : List UInt8, stream.length = 2 * count → ∃ samples : List UInt16,
      (samples.map UInt16.toNat = (List.range count).map fun i =>
        (stream.getD (2 * i) 0).toNat + 256 * (stream.getD (2 * i + 1) 0).toNat) ∧
      ∀ (σ : Type) [Link σ] (m : Nat) (a : Analyser (Recorded σ)), 2 ≤ m →
        Link.Serves m a.link.link stream → ∃ b parts, readSamples count a = .ok samples b ∧
          b.stage = .idle ∧ Requested m stream parts ∧
          b.link.exchanges = (parts.flatMap bufferRead).reverse ++ a.link.exchanges) ∧
    ∀ (σ : Type) [Link σ] (a : Analyser σ), Link.unit a.link < 2 →
      readSamples count a = .error (.unitTooSmall (Link.unit a.link)) a := by
  refine ⟨fun stream length => ⟨Wire.samples stream, Wire.map_toNat_samples length, ?_⟩,
    fun σ _ a => readSamples_of_small⟩
  intro σ _ m a carries serves
  have unit : Link.unit a.link = m := serves.unit_eq
  have some_fit : 0 < requestUnit m := by
    rw [requestUnit]
    omega
  have moved : requestUnit m ≤ m := by
    rw [requestUnit]
    omega
  have ends := readSamples_ends count a
  rw [unit, requestLengths, ← length] at ends
  cases run : readSamples count a with
  | ok samples b =>
    obtain ⟨made, extended, -, stage, parts, lengths, rfl, rfl⟩ := ends.ok run
    have follows := bufferReads_follow parts
    rw [lengths] at follows
    obtain ⟨-, same⟩ := served_follows some_fit moved serves follows extended.replayed
    obtain rfl := flatMap_bufferRead_injective same
    rw [flatten_pieces]
    exact ⟨b, _, rfl, stage, requested_pieces carries ⟨count, length⟩, extended.exchanges⟩
  | error error b =>
    obtain ⟨made, extended, ⟨small, -⟩ | ⟨-, -, phase, cause, -, follows⟩⟩ := ends.error run
    · exact absurd small (Nat.not_lt_of_le carries)
    · obtain ⟨unbroken, -⟩ := served_follows some_fit moved serves follows extended.replayed
      cases unbroken

/-- Four samples over a link that moves seven bytes. -/
theorem readSamples_exact_odd :
    let stream : List UInt8 := [0x34, 0x12, 0xCD, 0xAB, 0x00, 0x01, 0xFF, 0xFF]
    let linked (unit : Nat) : Analyser (Recorded Feed) := { link := ⟨⟨unit, stream⟩, []⟩ }
    stream.length = 2 * 4 ∧ 2 ≤ 7 ∧ Link.Serves 7 (linked 7).link.link stream ∧
      (∃ samples : List UInt16, samples.map UInt16.toNat = [0x1234, 0xABCD, 0x0100, 0xFFFF] ∧
        ∃ b parts, readSamples 4 (linked 7) = .ok samples b ∧ b.stage = .idle ∧
          Requested 7 stream parts ∧ b.link.exchanges = (parts.flatMap bufferRead).reverse) ∧
      Link.unit (linked 1).link < 2 ∧
      readSamples 4 (linked 1) = .error (.unitTooSmall 1) (linked 1) := by
  intro stream linked
  have serves : Link.Serves 7 (linked 7).link.link stream := Feed.serves ⟨7, stream⟩
  have small : Link.unit (linked 1).link < 2 := Nat.lt_succ_self 1
  obtain ⟨samples, values, exact⟩ := (readSamples_exact 4).1 stream rfl
  obtain ⟨b, parts, run, stage, requested, exchanges⟩ := exact Feed 7 (linked 7) (by omega) serves
  have turned_down := (readSamples_exact 4).2 (Recorded Feed) (linked 1) small
  exact ⟨rfl, by omega, serves, ⟨samples, values.trans (by decide), b, parts, run, stage, requested,
    exchanges.trans (List.append_nil _)⟩, small, turned_down⟩

end Analyser

end LogicCapture
