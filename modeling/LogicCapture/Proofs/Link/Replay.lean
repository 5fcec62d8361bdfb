import LogicCapture.Proofs.Link.Steady

/-!
# What a link answers

A record of transfers is of some link only if the link gave these results, one
after the other: `Link.Replays`. From that and from what is known of the link it
follows how the transfers on record went. A link that serves a stream is the
case in point: its record holds the stream, and nothing that went wrong.
-/

namespace LogicCapture

/-! ## Asking and failing -/

/-- What is asked of a link in one transfer. -/
inductive Ask where
  | send (bytes : List UInt8)
  | receive (length : Nat)
deriving DecidableEq

namespace Exchange

def ask : Exchange → Ask
  | sent bytes _ => .send bytes
  | received asked _ => .receive asked

/-- What is wrong with the transfer: the link failed, or the reply is not as long
as asked. -/
def fault? : Exchange → Option LinkError
  | sent _ (.ok _) => none
  | sent _ (.error cause) | received _ (.error cause) => some cause
  | received asked (.ok reply) =>
    if reply.length = asked then none else some (.shortRead asked reply.length)

theorem fault?_received_ok {asked : Nat} {reply : List UInt8} (length : reply.length = asked) :
    (received asked (.ok reply)).fault? = none :=
  if_pos length

theorem fault?_received_short {asked : Nat} {reply : List UInt8} (length : reply.length ≠ asked) :
    (received asked (.ok reply)).fault? = some (.shortRead asked reply.length) :=
  if_neg length

theorem eq_sent_of_ask {bytes : List UInt8} (e : Exchange) (asked : e.ask = .send bytes)
    (clean : e.fault? = none) : e = .sent bytes (.ok ()) := by
  cases e with
  | sent bytes' result =>
    cases asked
    cases result with
    | ok => rfl
    | error cause => cases clean
  | received => cases asked

end Exchange

namespace Link

variable {σ : Type} [Link σ] {t u v : σ} {made more : List Exchange} {m : Nat}

/-! ## Replays -/

/-- The link makes these transfers with these results, oldest first, and is left
in the second state. -/
inductive Replays : σ → List Exchange → σ → Prop
  | nil {t : σ} : Replays t [] t
  | sent {t u : σ} {made : List Exchange} (bytes : List UInt8) :
    Replays (send bytes t).link made u → Replays t (.sent bytes (send bytes t).result :: made) u
  | received {t u : σ} {made : List Exchange} (asked : Nat) :
    Replays (receive asked t).link made u →
      Replays t (.received asked (receive asked t).result :: made) u

theorem Replays.trans (first : Replays t made u) (second : Replays u more v) :
    Replays t (made ++ more) v := by
  induction first with
  | nil => exact second
  | sent bytes _ ih => exact .sent bytes (ih second)
  | received asked _ ih => exact .received asked (ih second)

/-- The link gives one answer only to what it is asked. -/
theorem Replays.cons_unique {e e' : Exchange} (one : Replays t (e :: made) u)
    (other : Replays t (e' :: more) v) (same : e.ask = e'.ask) :
    e = e' ∧ ∃ w, Replays w made u ∧ Replays w more v := by
  cases one with
  | sent bytes rest =>
    cases other with
    | sent bytes' rest' =>
      cases same
      exact ⟨rfl, _, rest, rest'⟩
    | received _ _ => cases same
  | received asked rest =>
    cases other with
    | sent _ _ => cases same
    | received asked' rest' =>
      cases same
      exact ⟨rfl, _, rest, rest'⟩

/-- What is replayed after the first of the transfers is replayed by the link that they leave. -/
theorem Replays.after (first : Replays t made u) (all : Replays t (made ++ more) v) :
    Replays u more v := by
  induction first with
  | nil => exact all
  | sent bytes _ ih =>
    cases all with
    | sent _ rest => exact ih rest
  | received asked _ ih =>
    cases all with
    | received _ rest => exact ih rest

theorem Replays.unique (one : Replays t made u) (other : Replays t made v) : u = v := by
  have nothing_left : Replays u [] v := one.after ((List.append_nil made).symm ▸ other)
  cases nothing_left
  rfl

theorem Replays.reaches (replayed : Replays t made u) : Reaches t u := by
  induction replayed with
  | nil => exact .refl
  | sent bytes _ ih => exact (Reaches.refl.send bytes).trans ih
  | received asked _ ih => exact (Reaches.refl.receive asked).trans ih

/-! ## Links that serve a stream -/

/-- States that belong to what is left of a stream: they move `m` bytes at a
time, take what is sent, and answer with the bytes at the front of the stream if
no more are asked for than they move. -/
structure Serving (m : Nat) (serving : σ → List UInt8 → Prop) : Prop where
  unit {t rest} : serving t rest → Link.unit t = m
  takes {t rest} (bytes : List UInt8) : serving t rest →
    (send bytes t).result = .ok () ∧ serving (send bytes t).link rest
  gives {t reply rest} : serving t (reply ++ rest) → reply.length ≤ m →
    (receive reply.length t).result = .ok reply ∧ serving (receive reply.length t).link rest

/-- The link, of unit `m`, serves the bytes of the stream in order. -/
def Serves (m : Nat) (link : σ) (stream : List UInt8) : Prop :=
  ∃ serving : σ → List UInt8 → Prop, Serving m serving ∧ serving link stream

theorem Serves.unit_eq {stream : List UInt8} (serves : Serves m t stream) : Link.unit t = m := by
  obtain ⟨serving, states, served⟩ := serves
  exact states.unit served

theorem Serves.takes {stream : List UInt8} (bytes : List UInt8) (serves : Serves m t stream) :
    (send bytes t).result = .ok () ∧ Serves m (send bytes t).link stream := by
  obtain ⟨serving, states, served⟩ := serves
  obtain ⟨taken, after⟩ := states.takes bytes served
  exact ⟨taken, serving, states, after⟩

theorem Serves.gives {reply rest : List UInt8} (serves : Serves m t (reply ++ rest))
    (moved : reply.length ≤ m) :
    (receive reply.length t).result = .ok reply ∧
      Serves m (receive reply.length t).link rest := by
  obtain ⟨serving, states, served⟩ := serves
  obtain ⟨given, after⟩ := states.gives served moved
  exact ⟨given, serving, states, after⟩

end Link

/-- A link with the bytes that it is still to give. -/
structure Feed where
  unit : Nat
  rest : List UInt8

namespace Feed

/-- Gives the next bytes, or runs out of time if there are not so many. -/
def receive (asked : Nat) (s : Feed) : Transfer Feed (List UInt8) :=
  if asked ≤ s.rest.length then
    ⟨.ok (s.rest.take asked), { s with rest := s.rest.drop asked }, []⟩
  else ⟨.error (.timeout 0), s, []⟩

instance : Link Feed where
  unit := Feed.unit
  send _ s := ⟨.ok (), s, []⟩
  receive := Feed.receive

theorem serves (s : Feed) : Link.Serves s.unit s s.rest := by
  refine ⟨fun t rest => t.unit = s.unit ∧ t.rest = rest, ⟨?_, ?_, ?_⟩, rfl, rfl⟩
  · exact fun served => served.1
  · exact fun _ served => ⟨rfl, served⟩
  · intro t reply rest served _
    rcases served with ⟨unit, left⟩
    have enough : reply.length ≤ t.rest.length := by
      rw [left, List.length_append]
      exact Nat.le_add_right _ _
    have given : Link.receive reply.length t =
        ⟨.ok (t.rest.take reply.length), { t with rest := t.rest.drop reply.length }, []⟩ :=
      if_pos enough
    rw [given, left, List.take_left, List.drop_left]
    exact ⟨rfl, unit, rfl⟩

end Feed

end LogicCapture
