import EnumGen.Proofs.Token.Lossless
import EnumGen.Proofs.Token.Written

/-!
# Any mix of calls on a stream

A stream can be asked for its next item in two ways, and they may take turns. Both take from the
same text: `Holds` relates a stream to what it has not delivered yet, which is what the unread text
is read as. Each call delivers the first item of that, be it a token or the failure behind the last
one, and goes on to the rest (`Holds.answer`). Once nothing is left, `pull` gives the end of the
input and `next?` nothing, as often as they are called (`answers_ofSource`).
-/

namespace EnumGen

namespace TokenStream

/-- The two ways to ask for the next item. -/
inductive Call
  | pull
  | next
  deriving DecidableEq, Repr

/-- What a call gives when everything has been delivered. -/
def Call.exhausted : Call → Option (Except LexError Token)
  | pull => some (.ok .eof)
  | next => none

/-- The token or failure that an answer delivers; the end of the input is neither. -/
def delivered? (answer : Option (Except LexError Token)) : Option (Except LexError Token) :=
  answer.filter fun
    | .ok t => !t.isEof
    | .error _ => true

/-- What one call gives, and the stream after it. -/
def answer (s : TokenStream) : Call → Option (Except LexError Token) × TokenStream
  | .pull => (some s.pull.1, s.pull.2)
  | .next => s.next?

/-- What calls one after the other give, each with the line that is reached after it. -/
def answers (s : TokenStream) : List Call → List (Option (Except LexError Token) × Nat)
  | [] => []
  | call :: calls => ((s.answer call).1, (s.answer call).2.line) :: (s.answer call).2.answers calls

end TokenStream

/-! ## What is left to deliver -/

namespace Lexed

/-- What a text has to deliver: its tokens, and its failure if it has one. -/
def deliveries (l : Lexed) : List (Except LexError Token) :=
  l.tokens.map (fun p => .ok p.1) ++ l.failure.toList.map .error

/-- The text behind its first item. -/
def tail (l : Lexed) : Lexed :=
  match l.tokens with
  | _ :: ts => { l with tokens := ts }
  | [] => { l with failure := none }

lemma deliveries_tail (l : Lexed) : l.tail.deliveries = l.deliveries.tail := by
  obtain ⟨ts, failure, line⟩ := l
  cases ts with
  | nil => cases failure <;> rfl
  | cons t ts => rfl

lemma lineAt_tail (l : Lexed) (i : Nat) : l.tail.lineAt i = l.lineAt (i + 1) := by
  obtain ⟨ts, failure, line⟩ := l
  cases ts <;> rfl

lemma ofChars_nil (n : Nat) : ofChars n [] = ⟨[], none, n⟩ :=
  ofChars_of_ending (e := .closed) rfl

/-- The end of the input is not delivered. -/
lemma delivered?_of_mem {n : Nat} {s : List Char} {a : Except LexError Token}
    (mem : a ∈ (ofChars n s).deliveries) : TokenStream.delivered? (some a) = some a := by
  obtain ⟨ps, last, e, d⟩ := exists_divides s
  rw [d.ofChars, deliveries, List.mem_append] at mem
  obtain mem | mem := mem
  · obtain ⟨p, piece, rfl⟩ := List.mem_map.mp mem
    have token : p.1 ∈ (numbered n ps).map Prod.fst := List.mem_map_of_mem piece
    rw [map_fst_numbered] at token
    obtain ⟨_, _, sp⟩ := d.occurs p.1 token
    simp [TokenStream.delivered?, sp.not_isEof]
  · obtain ⟨f, _, rfl⟩ := List.mem_map.mp mem
    rfl

end Lexed

namespace TokenStream
variable {s : TokenStream} {l : Lexed}

/-- The stream has still to deliver what the text consists of. -/
structure Holds (s : TokenStream) (l : Lexed) : Prop where
  unread : Lexed.ofChars s.line s.rest = l
  finished : s.finished → s.rest = []

lemma holds_ofSource (source : String) : (ofSource source).Holds (Lexed.ofSource source) :=
  ⟨rfl, nofun⟩

/-- Every call delivers the first item that is left, if there is one. -/
lemma Holds.answer (h : s.Holds l) (call : Call) :
    (s.answer call).1 = l.deliveries.head?.or call.exhausted ∧
      (s.answer call).2.line = l.lineAt 0 ∧ (s.answer call).2.Holds l.tail := by
  obtain ⟨rest, line, finished⟩ := s
  obtain ⟨rfl, empty⟩ := h
  dsimp only at empty ⊢
  obtain ⟨t, n, r, found⟩ | ⟨e, n, found⟩ := scan_cases line rest
  · -- A stream that has finished has no token left.
    have going : finished = false := by
      cases finished with
      | false => rfl
      | true =>
        rw [empty rfl] at found
        cases found
    obtain ⟨_, _, _, _, sp, _⟩ := scan_eq_token found
    rw [Lexed.ofChars_of_token found, going]
    cases call with
    | pull =>
      simp only [TokenStream.answer, pull, found]
      exact ⟨rfl, rfl, rfl, fun fin => absurd fin Bool.false_ne_true⟩
    | next =>
      simp only [TokenStream.answer, next?, pull, found, if_neg sp.not_isEof]
      exact ⟨rfl, rfl, rfl, fun fin => absurd fin Bool.false_ne_true⟩
  · rw [Lexed.ofChars_of_ending found]
    cases call with
    | pull =>
      simp only [TokenStream.answer, pull, found]
      cases e <;> exact ⟨rfl, rfl, Lexed.ofChars_nil n, fun _ => rfl⟩
    | next =>
      cases finished with
      | false =>
        simp only [TokenStream.answer, next?, pull, found]
        cases e <;> exact ⟨rfl, rfl, Lexed.ofChars_nil n, fun _ => rfl⟩
      | true =>
        rw [empty rfl] at found ⊢
        cases e <;> cases found
        exact ⟨rfl, rfl, Lexed.ofChars_nil line, fun _ => rfl⟩

/-- Calls deliver the items that are left, in order, until there are no more. -/
lemma Holds.answers (h : s.Holds l) (calls : List Call) : s.answers calls =
    calls.mapIdx fun i call => ((l.deliveries[i]?).or call.exhausted, l.lineAt i) := by
  induction calls generalizing s l with
  | nil => rfl
  | cons call calls ih =>
    obtain ⟨first, line, h'⟩ := h.answer call
    rw [TokenStream.answers, ih h', first, line, List.mapIdx_cons, List.head?_eq_getElem?]
    simp only [Lexed.deliveries_tail, Lexed.lineAt_tail, List.getElem?_tail]

/-- What calls deliver is the start of what there is to deliver. -/
lemma Holds.delivered (h : s.Holds l) (calls : List Call)
    (real : ∀ a ∈ l.deliveries, delivered? (some a) = some a) :
    (s.answers calls).filterMap (fun p => delivered? p.1) = l.deliveries.take calls.length := by
  induction calls generalizing s l with
  | nil => rfl
  | cons call calls ih =>
    obtain ⟨first, _, h'⟩ := h.answer call
    have later := ih h' (by
      rw [Lexed.deliveries_tail]
      exact fun a mem => real a (List.mem_of_mem_tail mem))
    rw [Lexed.deliveries_tail] at later
    rw [TokenStream.answers, List.filterMap_cons, first, later]
    cases items : l.deliveries with
    | nil =>
      rw [List.tail_nil, List.take_nil, List.take_nil]
      cases call <;> rfl
    | cons a as =>
      rw [items] at real
      rw [List.head?_cons, Option.some_or, real a List.mem_cons_self]
      rfl

end TokenStream

open TokenStream

/-- Whichever calls follow one another on a stream, the i-th one delivers the i-th token of the
text, or the failure behind the last token. When there is nothing left, `pull` gives the end of the
input and `next?` nothing, for good. So what is delivered is the start of what there is to deliver:
the tokens that the text is divided into, and one failure at most. The line that is reached is that
of the text up to the end of the item, whose failure names the last one. -/
theorem answers_ofSource (source : String) (calls : List Call) :
    let l := Lexed.ofSource source
    (ofSource source).answers calls =
        calls.mapIdx (fun i call => ((l.deliveries[i]?).or call.exhausted, l.lineAt i)) ∧
      ((ofSource source).answers calls).filterMap (fun p => delivered? p.1) =
        l.deliveries.take calls.length ∧
      ∃ ps last e, Divides source.toList ps last e ∧
        l.deliveries = (ps.map Piece.token).map .ok ++
          (e.failure (1 + newlines source.toList)).toList.map .error ∧
        ∀ i, l.lineAt i = 1 + newlines (textUpTo ps last (i + 1)) := by
  have holds := holds_ofSource source
  refine ⟨holds.answers calls, holds.delivered calls fun a mem => Lexed.delivered?_of_mem mem, ?_⟩
  obtain ⟨ps, last, e, d⟩ := exists_divides source.toList
  refine ⟨ps, last, e, d, ?_, Lexed.lineAt_of_divides d⟩
  have tokens := map_fst_numbered 1 ps
  rw [Lexed.ofSource, d.ofChars, Lexed.deliveries, ← tokens, List.map_map]
  rfl

-- The failure is delivered by one call and by no other, whichever way they are mixed.
example : (ofSource "a\n/*").answers [.pull, .next, .next, .pull] =
    [(some (.ok ⟨.ident, "a"⟩), 1), (some (.error (.unexpectedEnd 2)), 2), (none, 2),
      (some (.ok .eof), 2)] := by
  cbv

end EnumGen
