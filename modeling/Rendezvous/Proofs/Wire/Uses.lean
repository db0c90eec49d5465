import Rendezvous.Proofs.Wire.Delivery

/-!
# Uses of a framer

A framer is fed and polled in any order. No byte is lost and none is made up: the responses that
were given, followed by what is still held, are what was fed. A poll gives a response just when the
end of a head is held, the head announces a body, and the bytes of that body are there. Otherwise it
leaves the framer as it is.
-/

namespace Rendezvous.Wire

/-! ### The end of a head -/

/-- Where the first head of a stream ends: the bytes that end a head stand there, and nowhere
before. -/
structure IsFirstEnd (bytes : Bytes) (k : Nat) : Prop where
  ends : headEnd <+: bytes.drop k
  first : ∀ j < k, ¬ headEnd <+: bytes.drop j

private theorem isFirstEnd_cons {b : UInt8} {rest : Bytes} (hnot : ¬ headEnd <+: b :: rest)
    {k : Nat} :
    IsFirstEnd (b :: rest) (k + 1) ↔ IsFirstEnd rest k := by
  constructor
  · intro h
    exact ⟨h.ends, fun j hj ↦ h.first (j + 1) (by omega)⟩
  · intro h
    refine ⟨h.ends, fun j hj ↦ ?_⟩
    cases j with
    | zero => exact hnot
    | succ j => exact h.first j (by omega)

/-- A stream is cut where its first head ends. -/
theorem cutHead_eq_some_iff {bytes : Bytes} {cut : Bytes × Bytes} :
    cutHead bytes = some cut ↔
      ∃ k, IsFirstEnd bytes k ∧ cut = (bytes.take k, bytes.drop (k + 4)) := by
  fun_induction cutHead bytes generalizing cut with
  | case1 rest =>
    have hhere : headEnd <+: 13 :: 10 :: 13 :: 10 :: rest := ⟨rest, rfl⟩
    constructor
    · rintro ⟨⟩
      exact ⟨0, ⟨hhere, fun j hj ↦ absurd hj (Nat.not_lt_zero j)⟩, rfl⟩
    · rintro ⟨k, hend, rfl⟩
      cases k with
      | zero => rfl
      | succ k => exact absurd hhere (hend.first 0 (Nat.succ_pos k))
  | case2 b rest hno ih =>
    have hnot : ¬ headEnd <+: b :: rest := by
      rintro ⟨tail, htail⟩
      simp only [headEnd, Bytes.crlf, Bytes.cr, Bytes.lf, List.cons_append, List.nil_append,
        List.cons.injEq] at htail
      exact hno tail htail.1.symm htail.2.symm
    rw [Option.map_eq_some_iff]
    constructor
    · rintro ⟨cut', hcut, rfl⟩
      obtain ⟨k, hend, rfl⟩ := ih.1 hcut
      exact ⟨k + 1, (isFirstEnd_cons hnot).2 hend, rfl⟩
    · rintro ⟨k, hend, rfl⟩
      cases k with
      | zero => exact absurd hend.ends hnot
      | succ k => exact ⟨_, ih.2 ⟨k, (isFirstEnd_cons hnot).1 hend, rfl⟩, rfl⟩
  | case3 =>
    constructor
    · rintro ⟨⟩
    · rintro ⟨k, hend, -⟩
      have hlength := hend.ends.length_le
      rw [List.drop_nil] at hlength
      exact absurd hlength (by decide)

private theorem IsFirstEnd.take_append {bytes : Bytes} {k : Nat} (h : IsFirstEnd bytes k) :
    bytes.take k ++ headEnd ++ bytes.drop (k + 4) = bytes := by
  have hcut := cutHead_eq_some_iff.2 ⟨k, h, rfl⟩
  exact (eq_append_of_cutHead hcut).symm

/-- A length is announced by the last field of its name, as a number that is not negative. -/
theorem bodyLength_eq_ok_iff {fields : Headers} {n : Nat} :
    bodyLength fields = .ok n ↔ ∃ value, fields["content-length"]? = some value ∧
      Numeral.integer? value.toList = some (n : Int) := by
  rw [bodyLength]
  cases fields["content-length"]? with
  | none => simp
  | some value =>
    simp only [Option.some.injEq, exists_eq_left']
    cases Numeral.integer? value.toList with
    | none => simp
    | some length =>
      cases length with
      | ofNat length =>
        simp only [Except.ok.injEq, Option.some.injEq, Int.ofNat_eq_natCast, Int.natCast_inj]
      | negSucc length => simp

namespace Framer

/-! ### When a response is held -/

/-- Whether a response is held: its head ends after `k` bytes and announces `n` bytes of body, which
are all there. -/
structure Holds (f : Framer) (k n : Nat) : Prop where
  ends : IsFirstEnd f.buffer k
  announced : ∃ value, (Response.readHead (f.buffer.take k)).2["content-length"]? = some value ∧
    Numeral.integer? value.toList = some (n : Int)
  complete : k + 4 + n ≤ f.buffered

variable {f : Framer} {k n : Nat}

/-- The end of the head that a framer tells is the first one. -/
theorem headEnd?_eq_some_iff : f.headEnd? = some k ↔ IsFirstEnd f.buffer k := by
  rw [headEnd?, Option.map_eq_some_iff]
  constructor
  · rintro ⟨cut, hcut, hlength⟩
    obtain ⟨j, hend, rfl⟩ := cutHead_eq_some_iff.1 hcut
    have hwhole := congrArg List.length hend.take_append
    simp only [List.length_append, List.length_take, List.length_drop] at hwhole hlength
    obtain rfl : j = k := by
      have hfour : headEnd.length = 4 := rfl
      omega
    exact hend
  · intro hend
    refine ⟨_, cutHead_eq_some_iff.2 ⟨k, hend, rfl⟩, ?_⟩
    have hends := hend.ends.length_le
    rw [List.length_drop, show headEnd.length = 4 from rfl] at hends
    rw [List.length_take]
    omega

/-- What is found is what is held. -/
theorem next?_eq_some_iff {found : Response × Bytes} : f.next? = .ok (some found) ↔
    ∃ k n, f.Holds k n ∧
      found = (.ofParts (f.buffer.take k) ((f.buffer.drop (k + 4)).take n),
        f.buffer.drop (k + 4 + n)) := by
  rw [next?]
  constructor
  · intro h
    split at h
    · exact absurd h (awaitMore_ne_some _ _)
    · next head after hcut =>
      obtain ⟨k, hend, hparts⟩ := cutHead_eq_some_iff.1 hcut
      cases hparts
      simp only at h
      split at h
      · cases h
      · next n hlength =>
        split at h
        · exact absurd h (awaitMore_ne_some _ _)
        · next hfull =>
          have hfour := congrArg List.length hend.take_append
          simp only [Except.ok.injEq, Option.some.injEq] at h
          refine ⟨k, n, ⟨hend, bodyLength_eq_ok_iff.1 hlength, ?_⟩, ?_⟩
          · rw [buffered, ← hend.take_append]
            simp only [List.length_append, List.length_take, List.length_drop, headEnd, Bytes.crlf,
              List.length_cons, List.length_nil] at hfull hfour ⊢
            omega
          · rw [← h, List.drop_drop]
            rfl
  · rintro ⟨k, n, hheld, rfl⟩
    have hfull : ¬ (f.buffer.drop (k + 4)).length < n := by
      have hcomplete := hheld.complete
      rw [buffered] at hcomplete
      rw [List.length_drop]
      omega
    simp only [cutHead_eq_some_iff.2 ⟨k, hheld.ends, rfl⟩,
      bodyLength_eq_ok_iff.2 hheld.announced, if_neg hfull, List.drop_drop]
    rfl

/-- A poll gives a response just when one is held. -/
theorem exists_poll_iff : (∃ response, f.poll.1 = .ok (some response)) ↔ ∃ k n, f.Holds k n := by
  simp only [fst_poll_eq_some_iff, next?_eq_some_iff]
  constructor
  · rintro ⟨response, rest, k, n, hheld, -⟩
    exact ⟨k, n, hheld⟩
  · rintro ⟨k, n, hheld⟩
    exact ⟨_, _, k, n, hheld, rfl⟩

/-- What a poll gives is taken off the front: a head, its end and as many bytes as it announces. -/
theorem poll_takes {response : Response} (h : f.poll.1 = .ok (some response)) :
    ∃ k n, f.Holds k n ∧ response.raw = f.buffer.take k ++ headEnd ++ response.body ∧
      response.body.length = n ∧ f.buffer = response.raw ++ f.poll.2.buffer := by
  obtain ⟨rest, hnext⟩ := fst_poll_eq_some_iff.1 h
  obtain ⟨k, n, hheld, heq⟩ := next?_eq_some_iff.1 hnext
  have hrest : f.poll.2.buffer = rest := by rw [poll, hnext]
  have hbuffer := buffer_eq_of_next? hnext
  have hcomplete := hheld.complete
  cases heq
  refine ⟨k, n, hheld, rfl, ?_, hrest ▸ hbuffer⟩
  rw [buffered] at hcomplete
  simp only [Response.ofParts, List.length_take, List.length_drop]
  omega

/-- A poll that gives no response changes nothing. -/
theorem poll_stays (h : ∀ response, f.poll.1 ≠ .ok (some response)) : f.poll.2 = f := by
  rw [poll] at h ⊢
  rcases hnext : f.next? with e | _ | ⟨found, rest⟩ <;> simp_all

private theorem buffered_of_awaitMore {α : Type} {e : FramingError}
    (h : (f.awaitMore : Except FramingError (Option α)) = .error e) : e.buffered = f.buffered := by
  rw [awaitMore] at h
  split at h
  · cases h
    rfl
  · cases h

/-- An error carries the number of bytes held. -/
theorem buffered_of_next? {e : FramingError} (h : f.next? = .error e) :
    e.buffered = f.buffered := by
  rw [next?] at h
  split at h
  · exact buffered_of_awaitMore h
  · simp only at h
    split at h
    · cases h
      rfl
    · split at h
      · exact buffered_of_awaitMore h
      · cases h

/-- A poll fails just where the front of the stream cannot be framed. -/
theorem fst_poll_eq_error_iff {e : FramingError} : f.poll.1 = .error e ↔ f.next? = .error e := by
  rw [poll]
  rcases f.next? with e | _ | ⟨found, rest⟩ <;> simp

/-! ### Feeding and polling in any order -/

/-- What is done with a framer. -/
inductive Use where
  | feed (bytes : Bytes)
  | poll
  deriving DecidableEq, Repr

/-- What a poll answers. -/
abbrev Answer := Except FramingError (Option Response)

/-- The answers to the polls among uses, and the framer after all of them. -/
def use (f : Framer) : List Use → List Answer × Framer
  | [] => ([], f)
  | .feed bytes :: rest => (f.feed bytes).use rest
  | .poll :: rest => (f.poll.1 :: (f.poll.2.use rest).1, (f.poll.2.use rest).2)

/-- All that is fed, in order. -/
def fed : List Use → Bytes
  | [] => []
  | .feed bytes :: rest => bytes ++ fed rest
  | .poll :: rest => fed rest

/-- The bytes of the response that an answer gives. -/
def Answer.bytes : Answer → Bytes
  | .ok (some response) => response.raw
  | _ => []

/-- One poll neither loses nor makes up a byte. -/
theorem bytes_poll_append (f : Framer) : Answer.bytes f.poll.1 ++ f.poll.2.buffer = f.buffer := by
  by_cases h : ∃ response, f.poll.1 = .ok (some response)
  · obtain ⟨response, hgiven⟩ := h
    obtain ⟨-, -, -, -, -, hbuffer⟩ := poll_takes hgiven
    rw [hgiven, Answer.bytes, ← hbuffer]
  · rw [not_exists] at h
    rw [poll_stays h]
    have hnone : Answer.bytes f.poll.1 = [] := by
      rw [Answer.bytes.eq_def]
      split
      · next response hgiven => exact absurd hgiven (h response)
      · rfl
    rw [hnone, List.nil_append]

/-- Nor does any sequence of uses. -/
theorem bytes_use_append (f : Framer) (uses : List Use) :
    (f.use uses).1.flatMap Answer.bytes ++ (f.use uses).2.buffer = f.buffer ++ fed uses := by
  induction uses generalizing f with
  | nil => simp [use, fed]
  | cons first rest ih =>
    cases first with
    | feed bytes => rw [use, ih, buffer_feed, fed, List.append_assoc]
    | poll => rw [use, List.flatMap_cons, List.append_assoc, ih, ← List.append_assoc,
        bytes_poll_append, fed]

end Framer

end Rendezvous.Wire
