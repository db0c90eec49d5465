import Rendezvous.Wire.Response

/-!
# Framing

A stream of bytes as a sequence of responses. A head ends at the first empty line, and its
Content-Length field says how many bytes of body follow. Bytes are held until the response they
belong to is complete; only then are they taken off the front of the buffer.
-/

namespace Rendezvous.Wire

open Text

/-- Both sides of the first empty line of a stream: the head, and what follows. -/
def cutHead : Bytes → Option (Bytes × Bytes)
  | 13 :: 10 :: 13 :: 10 :: rest => some ([], rest)
  | b :: rest => (cutHead rest).map fun (head, after) => (b :: head, after)
  | [] => none

/-- The bytes between a head and its body. -/
def headEnd : Bytes := Bytes.crlf ++ Bytes.crlf

/-- The bytes are the head, its end and what stands behind. -/
theorem eq_append_of_cutHead {bytes head after : Bytes} (h : cutHead bytes = some (head, after)) :
    bytes = head ++ headEnd ++ after := by
  fun_induction cutHead bytes generalizing head after with
  | case1 rest =>
    cases h
    rfl
  | case2 b rest _ ih =>
    obtain ⟨⟨head', after'⟩, hcut, heq⟩ := Option.map_eq_some_iff.1 h
    cases heq
    simp [ih hcut]
  | case3 => cases h

/-- Why the bytes held can never become a response. -/
inductive FramingCause where
  | missingLength
  | invalidLength (value : String)
  | negativeLength (length : Int)
  | tooLarge (size : Nat)
  deriving DecidableEq, Repr

/-- A failure to frame, with the number of bytes held when it was found. -/
structure FramingError where
  cause : FramingCause
  buffered : Nat
  deriving DecidableEq, Repr

/-- What is said of a failure. -/
def FramingCause.message : FramingCause → String
  | .missingLength => "Missing Content-Length header"
  | .invalidLength value =>
    "Invalid Content-Length: " ++ String.ofList (Quoted.text value.toList)
  | .negativeLength length => s!"Negative Content-Length: {length}"
  | .tooLarge size => s!"Response too large: {size} bytes"

/-- The length of the body that a head announces. -/
def bodyLength (fields : Headers) : Except FramingCause Nat :=
  match fields["content-length"]? with
  | none => .error .missingLength
  | some value =>
    match Numeral.integer? value.toList with
    | none => .error (.invalidLength value)
    | some (.ofNat n) => .ok n
    | some length => .error (.negativeLength length)

/-- The bytes of a stream that do not form a response yet, with a bound on their number. -/
structure Framer where
  limit : Option Int := none
  buffer : Bytes := []
  deriving DecidableEq, Repr

namespace Framer

/-- The number of bytes held. -/
def buffered (f : Framer) : Nat := f.buffer.length

/-- Adds received bytes. -/
def feed (f : Framer) (bytes : Bytes) : Framer := { f with buffer := f.buffer ++ bytes }

/-- Drops everything that is held. -/
def reset (f : Framer) : Framer := { f with buffer := [] }

/-- Where the head that is held ends. -/
def headEnd? (f : Framer) : Option Nat := (cutHead f.buffer).map fun cut => cut.1.length

/-- Whether more is held than an incomplete response may take. -/
def isOverLimit (f : Framer) : Bool := f.limit.any fun limit => limit < (f.buffered : Int)

/-- An incomplete response: an error where it is over the limit. -/
def awaitMore {α : Type} (f : Framer) : Except FramingError (Option α) :=
  if f.isOverLimit then .error ⟨.tooLarge f.buffered, f.buffered⟩ else .ok none

/-- The first response held and the bytes after it, or nothing where more bytes are needed. -/
def next? (f : Framer) : Except FramingError (Option (Response × Bytes)) :=
  match cutHead f.buffer with
  | none => f.awaitMore
  | some (head, after) =>
    let (statusLine, headers) := Response.readHead head
    match bodyLength headers with
    | .error cause => .error ⟨cause, f.buffered⟩
    | .ok length =>
      if after.length < length then f.awaitMore
      else
        let body := after.take length
        .ok (some (⟨Response.statusOf statusLine, headers, body, head ++ headEnd ++ body⟩,
          after.drop length))

/-- Takes the first response off the buffer. Without one, and on an error, nothing changes. -/
def poll (f : Framer) : Except FramingError (Option Response) × Framer :=
  match f.next? with
  | .error e => (.error e, f)
  | .ok none => (.ok none, f)
  | .ok (some (response, rest)) => (.ok (some response), { f with buffer := rest })

/-- Waiting for more gives no response. -/
theorem awaitMore_ne_some {α : Type} (f : Framer) (a : α) : f.awaitMore ≠ .ok (some a) := by
  rw [awaitMore]
  split <;> simp

/-- A response and the bytes after it are the bytes held. -/
theorem buffer_eq_of_next? {f : Framer} {response : Response} {rest : Bytes}
    (h : f.next? = .ok (some (response, rest))) : f.buffer = response.raw ++ rest := by
  rw [next?] at h
  split at h
  · exact absurd h (awaitMore_ne_some _ _)
  · next head after hcut =>
    simp only at h
    split at h
    · cases h
    · next length _ =>
      split at h
      · exact absurd h (awaitMore_ne_some _ _)
      · simp only [Except.ok.injEq, Option.some.injEq, Prod.mk.injEq] at h
        obtain ⟨rfl, rfl⟩ := h
        simp [eq_append_of_cutHead hcut]

/-- A response has at least the bytes that end its head. -/
theorem four_le_length_of_next? {f : Framer} {response : Response} {rest : Bytes}
    (h : f.next? = .ok (some (response, rest))) : 4 ≤ response.raw.length := by
  rw [next?] at h
  split at h
  · exact absurd h (awaitMore_ne_some _ _)
  · simp only at h
    split at h
    · cases h
    · split at h
      · exact absurd h (awaitMore_ne_some _ _)
      · simp only [Except.ok.injEq, Option.some.injEq, Prod.mk.injEq] at h
        obtain ⟨rfl, -⟩ := h
        simp only [List.length_append, headEnd, Bytes.crlf, List.length_cons, List.length_nil]
        omega

/-- Taking a response off leaves fewer bytes. -/
theorem length_lt_of_next? {f : Framer} {response : Response} {rest : Bytes}
    (h : f.next? = .ok (some (response, rest))) : rest.length < f.buffer.length := by
  have hlen := congrArg List.length (buffer_eq_of_next? h)
  have := four_le_length_of_next? h
  rw [List.length_append] at hlen
  omega

end Framer

end Rendezvous.Wire
