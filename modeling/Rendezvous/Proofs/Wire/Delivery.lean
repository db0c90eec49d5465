import Rendezvous.Proofs.Wire.Framing

/-!
# Delivery in chunks

A stream arrives in chunks, and after each chunk everything complete is taken off. Which responses
come of a stream, whether its reading ends at an error, and what stays held depend on the stream
alone and not on where it is cut. The limit has no part in this as long as no complete response is
larger: it then only ever stops a reading whose bytes belong to no complete response.
-/

namespace Rendezvous.Wire

/-- What comes of reading: the responses in order, the error that ended it, if one did, and the
framer that is left. -/
structure Reading where
  responses : List Response
  error : Option FramingError
  framer : Framer

/-- The reading with a response before all others. -/
def Reading.push (r : Reading) (response : Response) : Reading :=
  { r with responses := response :: r.responses }

/-- One reading after another. -/
def Reading.andThen (first second : Reading) : Reading :=
  { second with responses := first.responses ++ second.responses }

namespace Framer

private theorem poll_eq_some {f after : Framer} {response : Response}
    (h : f.poll = (.ok (some response), after)) :
    ∃ rest, f.next? = .ok (some (response, rest)) ∧ after = { f with buffer := rest } := by
  rw [poll] at h
  split at h
  · cases h
  · cases h
  · next response' rest hnext =>
    simp only [Prod.mk.injEq, Except.ok.injEq, Option.some.injEq] at h
    obtain ⟨rfl, rfl⟩ := h
    exact ⟨rest, hnext, rfl⟩

/-- A poll gives a response just where one is found at the front. -/
theorem fst_poll_eq_some_iff {f : Framer} {response : Response} :
    f.poll.1 = .ok (some response) ↔ ∃ rest, f.next? = .ok (some (response, rest)) := by
  rw [poll]
  rcases f.next? with e | _ | ⟨found, rest⟩ <;> simp

/-- Polls until there is nothing more, or an error. -/
def drain (f : Framer) : Reading :=
  match _found : f.poll with
  | (.error e, f) => ⟨[], some e, f⟩
  | (.ok none, f) => ⟨[], none, f⟩
  | (.ok (some response), f) => f.drain.push response
termination_by f.buffer.length
decreasing_by
  obtain ⟨rest, hnext, rfl⟩ := poll_eq_some _found
  exact length_lt_of_next? hnext

/-- Feeds chunks in order and drains after each, up to the first error. -/
def deliver (f : Framer) : List Bytes → Reading
  | [] => ⟨[], none, f⟩
  | chunk :: rest =>
    let first := (f.feed chunk).drain
    match first.error with
    | some _ => first
    | none => first.andThen (first.framer.deliver rest)

end Framer

/-- Two readings that cannot be told apart by what was read: the same responses, an error in both
or in neither, and without one the same bytes still held. -/
structure Reading.Agrees (r s : Reading) : Prop where
  responses : r.responses = s.responses
  error : r.error.isSome = s.error.isSome
  buffer : r.error = none → r.framer.buffer = s.framer.buffer

/-- A way to cut a stream into chunks, empty ones among them. There is one chunk more than there
are cuts, so that the empty stream is one empty chunk. -/
structure Cutting (stream : Bytes) where
  chunks : List Bytes
  ne_nil : chunks ≠ []
  flatten_chunks : chunks.flatten = stream

namespace Reading

private theorem Agrees.symm {r s : Reading} (h : r.Agrees s) : s.Agrees r where
  responses := h.responses.symm
  error := h.error.symm
  buffer hs := (h.buffer (by simpa [hs] using h.error)).symm

private theorem Agrees.trans {r s t : Reading} (h : r.Agrees s) (h' : s.Agrees t) : r.Agrees t where
  responses := h.responses.trans h'.responses
  error := h.error.trans h'.error
  buffer hr := (h.buffer hr).trans (h'.buffer (by simpa [hr] using h.error))

private theorem Agrees.andThen {r s : Reading} (h : r.Agrees s) (first : Reading) :
    (first.andThen r).Agrees (first.andThen s) where
  responses := congrArg (first.responses ++ ·) h.responses
  error := h.error
  buffer := h.buffer

private theorem Agrees.push {r s : Reading} (h : r.Agrees s) (response : Response) :
    (r.push response).Agrees (s.push response) where
  responses := congrArg (response :: ·) h.responses
  error := h.error
  buffer := h.buffer

/-- Every response of a reading is within a limit. -/
def Fits (r : Reading) (limit : Option Int) : Prop :=
  ∀ max ∈ limit, ∀ response ∈ r.responses, (response.raw.length : Int) ≤ max

private theorem Fits.of_push {r : Reading} {response : Response} {limit : Option Int}
    (h : (r.push response).Fits limit) : r.Fits limit :=
  fun max hmax found hmem ↦ h max hmax found (List.mem_cons_of_mem _ hmem)

private theorem Fits.of_andThen {first second : Reading} {limit : Option Int}
    (h : (first.andThen second).Fits limit) : second.Fits limit :=
  fun max hmax found hmem ↦ h max hmax found (List.mem_append_right _ hmem)

end Reading

namespace Framer

private theorem drain_of_error {f : Framer} {e : FramingError} (h : f.next? = .error e) :
    f.drain = ⟨[], some e, f⟩ := by
  have hpoll : f.poll = (.error e, f) := by rw [poll, h]
  rw [drain]
  split <;> simp_all

private theorem drain_of_none {f : Framer} (h : f.next? = .ok none) : f.drain = ⟨[], none, f⟩ := by
  have hpoll : f.poll = (.ok none, f) := by rw [poll, h]
  rw [drain]
  split <;> simp_all

/-- A complete response is drained, and then what is behind it. -/
theorem drain_of_some {f : Framer} {response : Response} {rest : Bytes}
    (h : f.next? = .ok (some (response, rest))) :
    f.drain = ({ f with buffer := rest } : Framer).drain.push response := by
  have hpoll : f.poll = (.ok (some response), { f with buffer := rest }) := by rw [poll, h]
  rw [drain]
  split <;> simp_all

/-- Induction along the responses that are held, up to the error or the bytes behind them. -/
@[elab_as_elim]
theorem drain_induction {motive : Framer → Prop}
    (error : ∀ f e, f.next? = .error e → motive f)
    (wait : ∀ f, f.next? = .ok none → motive f)
    (found : ∀ f response rest, f.next? = .ok (some (response, rest)) →
      motive { f with buffer := rest } → motive f) (f : Framer) : motive f := by
  induction h : f.buffer.length using Nat.strongRecOn generalizing f with
  | _ n ih =>
    rcases hnext : f.next? with e | _ | ⟨response, rest⟩
    · exact error f e hnext
    · exact wait f hnext
    · exact found f response rest hnext (ih _ (h ▸ length_lt_of_next? hnext) _ rfl)

/-- Draining keeps the limit. -/
theorem limit_drain (f : Framer) : f.drain.framer.limit = f.limit := by
  induction f using drain_induction with
  | error f e h => rw [drain_of_error h]
  | wait f h => rw [drain_of_none h]
  | found f response rest h ih =>
    rw [drain_of_some h]
    exact ih

/-- A framer that was drained without an error waits for more bytes. -/
theorem next?_drain {f : Framer} (hdrained : f.drain.error = none) :
    f.drain.framer.next? = .ok none := by
  induction f using drain_induction with
  | error f e h => simp [drain_of_error h] at hdrained
  | wait f h => rwa [drain_of_none h]
  | found f response rest h ih =>
    rw [drain_of_some h] at hdrained ⊢
    exact ih hdrained

private theorem responses_drain_eq_nil {f : Framer} (h : ∀ found, f.next? ≠ .ok (some found)) :
    f.drain.responses = [] := by
  rcases hnext : f.next? with e | _ | found
  · rw [drain_of_error hnext]
  · rw [drain_of_none hnext]
  · exact absurd hnext (h found)

/-- The responses that are held do not depend on the limit. -/
theorem responses_drain_limit (f : Framer) (limit : Option Int) :
    ({ f with limit } : Framer).drain.responses = f.drain.responses := by
  -- what is found under the other limit is found under the framer's own
  have back {f : Framer} (h : ∀ found, f.next? ≠ .ok (some found)) :
      ({ f with limit } : Framer).drain.responses = f.drain.responses := by
    rw [responses_drain_eq_nil h]
    exact responses_drain_eq_nil fun found hfound ↦ h found (next?_limit hfound f.limit)
  induction f using drain_induction with
  | error f e h => exact back (by simp [h])
  | wait f h => exact back (by simp [h])
  | found f response rest h ih =>
    rw [drain_of_some h, drain_of_some (next?_limit h limit)]
    exact congrArg (response :: ·) ih

/-- What follows is read from where the reading stopped to wait. -/
theorem drain_feed {f : Framer} (hdrained : f.drain.error = none) (more : Bytes) :
    (f.feed more).drain = f.drain.andThen (f.drain.framer.feed more).drain := by
  induction f using drain_induction with
  | error f e h => simp [drain_of_error h] at hdrained
  | wait f h =>
    rw [drain_of_none h]
    rfl
  | found f response rest h ih =>
    rw [drain_of_some h] at hdrained ⊢
    rw [drain_of_some (next?_feed h more)]
    exact congrArg (Reading.push · response) (ih hdrained)

/-- Once there is an error, what follows changes nothing, provided the limit refuses no
response. -/
theorem drain_feed_agrees {f : Framer} (hfailed : f.drain.error ≠ none) (more : Bytes)
    (hfits : (f.feed more).drain.Fits f.limit) : f.drain.Agrees (f.feed more).drain := by
  induction f using drain_induction with
  | error f e h =>
    rcases next?_feed_of_error h more with ⟨e', h'⟩ | ⟨response, rest, h', limit, hlimit, hlt⟩
    · rw [drain_of_error h, drain_of_error h']
      exact ⟨rfl, rfl, fun hnone ↦ absurd hnone (Option.some_ne_none e)⟩
    · rw [drain_of_some h'] at hfits
      have hwithin := hfits limit hlimit response List.mem_cons_self
      omega
  | wait f h => simp [drain_of_none h] at hfailed
  | found f response rest h ih =>
    rw [drain_of_some (next?_feed h more)] at hfits ⊢
    rw [drain_of_some h] at hfailed ⊢
    exact (ih hfailed hfits.of_push).push response

/-- Delivery in chunks reads what the whole stream holds. A framer that does not wait must be fed
something first. -/
theorem deliver_agrees {f : Framer} {chunks : List Bytes}
    (hready : chunks ≠ [] ∨ f.next? = .ok none)
    (hfits : (f.feed chunks.flatten).drain.Fits f.limit) :
    (f.deliver chunks).Agrees (f.feed chunks.flatten).drain := by
  induction chunks generalizing f with
  | nil =>
    have hwait := hready.resolve_left (by simp)
    have hfeed : f.feed [] = f := by simp [feed]
    rw [List.flatten_nil, hfeed, drain_of_none hwait]
    exact ⟨rfl, rfl, fun _ ↦ rfl⟩
  | cons chunk rest ih =>
    rw [List.flatten_cons, ← feed_feed] at hfits ⊢
    rw [deliver]
    split
    · next e he => exact drain_feed_agrees (by simp [he]) _ hfits
    · next he =>
      rw [drain_feed he] at hfits ⊢
      apply (ih (.inr (next?_drain he)) _).andThen
      rw [limit_drain]
      exact hfits.of_andThen

/-- However a stream is cut, its delivery gives the same responses, ends at an error or not
alike, and without one leaves the same bytes held, provided the limit refuses no response that
the stream holds. -/
theorem deliver_cutting {stream : Bytes} {limit : Option Int}
    (hfits : (({} : Framer).feed stream).drain.Fits limit) (c d : Cutting stream) :
    (({ limit } : Framer).deliver c.chunks).Agrees (({ limit } : Framer).deliver d.chunks) := by
  have whole (c : Cutting stream) : (({ limit } : Framer).deliver c.chunks).Agrees
      (({ limit } : Framer).feed stream).drain := by
    have hsame := responses_drain_limit (({} : Framer).feed stream) limit
    have hfits' : (({ limit } : Framer).feed stream).drain.Fits limit := by
      intro max hmax response hmem
      exact hfits max hmax response (hsame ▸ hmem)
    have hagrees := deliver_agrees (f := { limit }) (.inl c.ne_nil)
    rw [c.flatten_chunks] at hagrees
    exact hagrees hfits'
  exact (whole c).trans (whole d).symm

/-- A response of forty bytes, and the beginning of another. -/
def sampleStream : Bytes :=
  Bytes.ofAscii "HTTP/1.0 200 OK\r\nContent-Length: 2\r\n\r\nhiHT"

private theorem fits_sampleStream : (({} : Framer).feed sampleStream).drain.Fits (some 40) := by
  have hfirst : (({} : Framer).feed sampleStream).next?.toOption.join.map
      (fun found ↦ (found.1.raw.length, found.2)) = some (40, Bytes.ofAscii "HT") := by
    decide +kernel
  rcases hnext : (({} : Framer).feed sampleStream).next? with e | _ | ⟨response, rest⟩
  · simp [hnext, Except.toOption] at hfirst
  · simp [hnext, Except.toOption] at hfirst
  · simp only [hnext, Except.toOption, Option.join_some, Option.map_some, Option.some.injEq,
      Prod.mk.injEq] at hfirst
    have hlast : ({ buffer := rest } : Framer).next? = .ok none := by
      rw [hfirst.2]
      rfl
    intro max hmax found hmem
    cases hmax
    rw [drain_of_some hnext] at hmem
    simp only [Reading.push, feed, drain_of_none hlast, List.mem_singleton] at hmem
    simp [hmem, hfirst.1]

/-- A cut inside the head and one inside the body, under a limit that the stream exceeds and its
response does not. -/
theorem deliver_cutting_sample :
    (({} : Framer).feed sampleStream).drain.Fits (some 40) ∧
      (({ limit := some 40 } : Framer).deliver
          [sampleStream.take 10, sampleStream.drop 10]).Agrees
        (({ limit := some 40 } : Framer).deliver
          [sampleStream.take 39, [], sampleStream.drop 39]) :=
  ⟨fits_sampleStream, deliver_cutting fits_sampleStream
    ⟨[sampleStream.take 10, sampleStream.drop 10], by simp, by simp⟩
    ⟨[sampleStream.take 39, [], sampleStream.drop 39], by simp, by simp⟩⟩

end Framer

end Rendezvous.Wire
