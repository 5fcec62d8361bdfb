import LogicCapture.Proofs.Image.Frame
import LogicCapture.Proofs.Session.Delivery

/-!
# Loaded words

Whoever listens to the wire while an image is loaded gets its words back. The pieces
are put together again, wherever they were cut; behind the byte of the command comes
the number of the words, and then nothing but the words. `Analyser.words_round_trip`
says so together with the laws of the bytes themselves, in both directions.
-/

namespace LogicCapture

namespace Analyser

open Session

section Load

variable {σ : Type} [Link σ] {image : Image} {a b : Analyser (Recorded σ)}

theorem load_of_willing (same : image.geometry = a.geometry) (willing : Link.Willing a.link.link) :
    ∃ b, load image a = .ok () b := by
  obtain ⟨_, b, run⟩ := exists_ok_of_willing (load_ends same) (map_ask_frameMoves _ _) willing
  exact ⟨b, run⟩

/-- A load that went well sent the frame of its image, and did nothing else on the link. -/
theorem exchanges_of_load (run : load image a = .ok () b) :
    b.link.exchanges = ((pieces (Link.unit a.link) image.frame).map
      (Exchange.sent · (.ok ()))).reverse ++ a.link.exchanges := by
  obtain ⟨made, extended, -, follows⟩ := (load_ends (geometry_of_load run)).ok run
  obtain rfl := follows.eq_sent (map_ask_frameMoves _ _)
  exact extended.exchanges

end Load

/-- Words come back from their bytes, four for each of them, and bytes from their words but for
those at the end that make no whole word. Over a link that takes what is sent every image for the
analyser is loaded, and whenever one is, its words and their number come back from the pieces that
went out, which were cut to the unit of the link. -/
theorem words_round_trip :
    (∀ words, (Wire.ofWords words).length = 4 * words.length ∧
      Wire.toWords (Wire.ofWords words) = words) ∧
    (∀ bytes, Wire.ofWords (Wire.toWords bytes) = bytes.rdrop (bytes.length % 4)) ∧
    ∀ {σ : Type} [Link σ] (p : Program) (a : Analyser (Recorded σ)),
      (p.geometry = a.geometry → Link.Willing a.link.link → ∃ b, load p.compile a = .ok () b) ∧
      ∀ b, load p.compile a = .ok () b → ∃ sent,
        b.link.exchanges = (sent.map (Exchange.sent · (.ok ()))).reverse ++ a.link.exchanges ∧
        Cut (Link.unit a.link) p.compile.frame sent ∧
        Wire.toWords (sent.flatten.drop 3) = p.compile.words ∧
        ∃ low high, sent.flatten[1]? = some low ∧ sent.flatten[2]? = some high ∧
          low.toNat + 256 * high.toNat = p.compile.words.length := by
  refine ⟨fun words => ⟨Wire.length_ofWords words, Wire.toWords_ofWords words⟩,
    Wire.ofWords_toWords, fun p a => ⟨fun same willing => ?_, fun b run => ?_⟩⟩
  · exact load_of_willing (p.compile_geometry.trans same) willing
  · have cut := cut_pieces (Link.unit a.link) p.compile.frame
    refine ⟨_, exchanges_of_load run, cut, ?_, ?_⟩
    · rw [cut.whole]
      exact p.compile.toWords_drop_frame
    · rw [cut.whole]
      exact p.number_in_frame

/-- An analyser over a link that takes five bytes at a time. -/
def byFives : Analyser (Recorded Script) where
  link := ⟨{ unit := 5 }, []⟩

/-- Its image comes in 131 pieces, most of which end within a word. -/
theorem words_round_trip_byFives :
    Wire.ofWords (Wire.toWords [1, 2, 3, 4, 5, 6]) = [1, 2, 3, 4] ∧
    (Program.make .standard .standard).geometry = byFives.geometry ∧
      Link.Willing byFives.link.link ∧
      ∃ b, ∃ sent : List (List UInt8),
        load (Program.make .standard .standard).compile byFives = .ok () b ∧
        b.link.exchanges = (sent.map (Exchange.sent · (.ok ()))).reverse ∧
        sent.length = 131 ∧
        Wire.toWords (sent.flatten.drop 3) = (Program.make .standard .standard).compile.words := by
  have willing : Link.Willing byFives.link.link := Script.willing rfl
  obtain ⟨-, partly, loads⟩ := words_round_trip
  obtain ⟨loaded, brought⟩ := loads (Program.make .standard .standard) byFives
  obtain ⟨b, run⟩ := loaded rfl willing
  obtain ⟨sent, exchanges, cut, words, -⟩ := brought b run
  have count : (Program.make .standard .standard).compile.words.length = 162 :=
    (Program.make .standard .standard).length_words
  have number := cut.number
  rw [Image.length_frame, count] at number
  exact ⟨partly _, rfl, willing, b, sent, run, exchanges.trans (List.append_nil _),
    number, words⟩

end Analyser

end LogicCapture
