import Rendezvous.Proofs.Wire.Uses

/-!
# What the limit refuses

A framer compares what it holds with its limit only where a poll finds a response that is not
complete. So a response over the limit is refused just when some poll comes while more than the
limit, and not yet all of the response, is held. Fed at one go it is given like any other. Where
every chunk is polled for and no chunk is larger than what the response is over the limit, it is
refused.
-/

namespace Rendezvous.Wire.Framer

variable {f : Framer} {max : Int} {response : Response} {rest : Bytes} {uses : List Use}

/-- Whether a response is what its own bytes hold. -/
def IsFramed (response : Response) : Prop :=
  (({} : Framer).feed response.raw).poll.1 = .ok (some response)

/-- The numbers of bytes that polls find, as long as nothing is taken off. -/
def held (start : Nat) : List Use → List Nat
  | [] => []
  | .feed bytes :: rest => held (start + bytes.length) rest
  | .poll :: rest => start :: held start rest

/-- Those of them that find a part of a response. -/
def awaited (f : Framer) (uses : List Use) (response : Response) : List Nat :=
  (held f.buffered uses).filter (· < response.raw.length)

/-- What a poll answers that finds a part of a response. -/
def partly (max : Int) (k : Nat) : Answer :=
  if max < k then .error ⟨.tooLarge k, k⟩ else .ok none

/-! ### One poll -/

private theorem next?_of_isFramed (h : IsFramed response) :
    ({ buffer := response.raw } : Framer).next? = .ok (some (response, [])) := by
  obtain ⟨rest, hnext⟩ := fst_poll_eq_some_iff.1 h
  obtain rfl : rest = [] := List.append_right_eq_self.1 (buffer_eq_of_next? hnext).symm
  exact hnext

/-- A head that announces a body, and nothing complete, is waited on. -/
theorem next?_eq_awaitMore (hsound : ¬ f.IsRuined)
    (hnone : ∀ found, f.next? ≠ .ok (some found)) : f.next? = f.awaitMore := by
  rw [next?] at hnone ⊢
  split
  · rfl
  · next head after hcut =>
    simp only at hnone ⊢
    split
    · next cause hcause => exact absurd ⟨head, after, cause, hcut, hcause⟩ hsound
    · next n hlength =>
      split
      · rfl
      · next hfull =>
        simp only [hcut, hlength, if_neg hfull] at hnone
        exact absurd rfl (hnone _)

/-- A part of a response is waited on. -/
theorem next?_of_partly (hframed : IsFramed response) (hpart : f.buffer <+: response.raw)
    (hless : f.buffered < response.raw.length) : f.next? = f.awaitMore := by
  obtain ⟨tail, htail⟩ := hpart
  have hwhole : ({ f with limit := none } : Framer).feed tail = { buffer := response.raw } := by
    rw [feed, ← htail]
  have hfound := next?_of_isFramed hframed
  rw [← hwhole] at hfound
  apply next?_eq_awaitMore
  · intro hruined
    have hruined' : ({ f with limit := none } : Framer).IsRuined := hruined
    obtain ⟨e, herror⟩ := next?_of_isRuined (isRuined_feed hruined' tail)
    rw [herror] at hfound
    cases hfound
  · rintro ⟨found, left⟩ hnext
    have hsame := next?_feed (next?_limit hnext none) tail
    rw [hfound] at hsame
    simp only [Except.ok.injEq, Option.some.injEq, Prod.mk.injEq, List.nil_eq,
      List.append_eq_nil_iff] at hsame
    rw [buffered, ← htail, hsame.2.2, List.append_nil] at hless
    exact absurd hless (Nat.lt_irrefl _)

private theorem poll_of_partly (hlimit : f.limit = some max) (hframed : IsFramed response)
    (hpart : f.buffer <+: response.raw) (hless : f.buffered < response.raw.length) :
    f.poll = (partly max f.buffered, f) := by
  rw [poll, next?_of_partly hframed hpart hless, awaitMore, isOverLimit, hlimit, partly]
  by_cases hover : max < f.buffered <;> simp [hover]

/-- A response that is all there is given, whatever its size. -/
theorem fst_poll_of_framed (hframed : IsFramed response) (hwhole : response.raw <+: f.buffer) :
    f.poll.1 = .ok (some response) := by
  obtain ⟨more, hmore⟩ := hwhole
  apply fst_poll_eq_some_iff.2
  refine ⟨more, ?_⟩
  have hfound := next?_raw_append (next?_of_isFramed hframed) f.limit more
  rwa [hmore] at hfound

/-! ### All polls up to a response -/

private theorem le_of_mem_held {start k : Nat} (h : k ∈ held start uses) : start ≤ k := by
  induction uses generalizing start with
  | nil => cases h
  | cons first rest ih =>
    cases first with
    | feed bytes => exact Nat.le_of_add_right_le (ih h)
    | poll =>
      rcases List.mem_cons.1 h with rfl | hlater
      · exact Nat.le_refl _
      · exact ih hlater

private theorem filter_held_of_le {start n : Nat} (h : n ≤ start) :
    (held start uses).filter (· < n) = [] := by
  apply List.filter_eq_nil_iff.2
  intro k hk
  have hle := le_of_mem_held hk
  simp only [decide_eq_true_eq]
  omega

/-- As long as a part of a response is held, polls answer by the number of bytes that they find, and
the first poll that finds all of it gives it. -/
theorem answers_up_to (hlimit : f.limit = some max) (hframed : IsFramed response)
    (hstream : f.buffer ++ fed uses <+: response.raw ++ rest) :
    (f.use uses).1.take (f.awaited uses response).length =
        (f.awaited uses response).map (partly max) ∧
      (f.use uses).1[(f.awaited uses response).length]? =
        (held f.buffered uses)[(f.awaited uses response).length]?.map
          fun _ ↦ .ok (some response) := by
  induction uses generalizing f with
  | nil => exact ⟨rfl, rfl⟩
  | cons first others ih =>
    cases first with
    | feed bytes =>
      have hfed : (f.feed bytes).buffered = f.buffered + bytes.length := by
        rw [buffered, buffer_feed, List.length_append, buffered]
      rw [fed, ← List.append_assoc, ← buffer_feed] at hstream
      rw [awaited, held, use, ← hfed]
      exact ih hlimit hstream
    | poll =>
      rw [fed] at hstream
      have hbuffer := (List.prefix_append _ _).trans hstream
      rw [awaited, held, use]
      rcases Nat.lt_or_ge f.buffered response.raw.length with hless | hfull
      · have hpart := List.prefix_of_prefix_length_le hbuffer (List.prefix_append _ _)
          (Nat.le_of_lt hless)
        obtain ⟨hwaits, hlast⟩ := ih hlimit hstream
        rw [poll_of_partly hlimit hframed hpart hless, List.filter_cons_of_pos (by simpa)]
        simp only [List.length_cons, List.take_succ_cons, List.map_cons,
          List.getElem?_cons_succ]
        exact ⟨congrArg (_ :: ·) hwaits, hlast⟩
      · have hwhole := List.prefix_of_prefix_length_le (List.prefix_append _ _) hbuffer hfull
        rw [List.filter_cons_of_neg (by simpa), filter_held_of_le hfull,
          fst_poll_of_framed hframed hwhole]
        exact ⟨rfl, rfl⟩

/-! ### The pace of the polls -/

/-- Feeds chunks in order and polls once after each. -/
def paced (chunks : List Bytes) : List Use := chunks.flatMap fun chunk ↦ [.feed chunk, .poll]

/-- Polls after chunks of no more than `m` bytes find a number of bytes that is over the limit by no
more than these, as soon as there are more bytes than the limit. -/
theorem exists_mem_held_paced {chunks : List Bytes} {start m : Nat}
    (hsmall : ∀ chunk ∈ chunks, chunk.length ≤ m) (hstart : (start : Int) ≤ max)
    (hmore : max < start + (chunks.flatten.length : Int)) :
    ∃ k ∈ held start (paced chunks), max < k ∧ (k : Int) ≤ max + m := by
  induction chunks generalizing start with
  | nil =>
    simp only [List.flatten_nil, List.length_nil] at hmore
    omega
  | cons chunk chunks ih =>
    have hchunk := hsmall chunk List.mem_cons_self
    show ∃ k ∈ (start + chunk.length) :: held (start + chunk.length) (paced chunks), _
    by_cases hover : max < ((start + chunk.length : Nat) : Int)
    · exact ⟨_, List.mem_cons_self, hover, by omega⟩
    · rw [List.flatten_cons, List.length_append] at hmore
      obtain ⟨k, hk, hbounds⟩ := @ih (start + chunk.length)
        (fun c hc ↦ hsmall c (List.mem_cons_of_mem _ hc)) (by omega) (by omega)
      exact ⟨k, List.mem_cons_of_mem _ hk, hbounds⟩

private theorem fed_paced (chunks : List Bytes) : fed (paced chunks) = chunks.flatten := by
  induction chunks with
  | nil => rfl
  | cons chunk chunks ih => exact congrArg (chunk ++ ·) ih

/-- Of a stream that begins with a response, the polls that find a part of the response answer with
an error where they find more than the limit, and with nothing where they do not; the first one that
finds all of it gives it. So an error precedes the response just when a poll finds more than the
limit and less than the response. That is so for every response that is over the limit by more than
the largest chunk, if there is a poll after every chunk. -/
theorem refused_iff_found_partly (hlimit : f.limit = some max) (hframed : IsFramed response)
    (hstream : f.buffer ++ fed uses <+: response.raw ++ rest) :
    let before := (f.use uses).1.take (f.awaited uses response).length
    before = (f.awaited uses response).map (partly max) ∧
    (f.use uses).1[(f.awaited uses response).length]? =
      (held f.buffered uses)[(f.awaited uses response).length]?.map
        (fun _ ↦ .ok (some response)) ∧
    ((∃ e, .error e ∈ before) ↔
      ∃ k ∈ held f.buffered uses, max < k ∧ k < response.raw.length) ∧
    ∀ (m : Nat) (chunks : List Bytes), uses = paced chunks →
      (∀ chunk ∈ chunks, chunk.length ≤ m) → (f.buffered : Int) ≤ max →
      max + m < response.raw.length → max < f.buffered + (fed uses).length →
      ∃ e, .error e ∈ before := by
  intro before
  obtain ⟨hbefore, hlast⟩ := answers_up_to hlimit hframed hstream
  have hrefused : (∃ e, .error e ∈ before) ↔
      ∃ k ∈ held f.buffered uses, max < k ∧ k < response.raw.length := by
    rw [show before = _ from hbefore, awaited]
    simp only [List.mem_map, List.mem_filter, decide_eq_true_eq, partly]
    constructor
    · rintro ⟨e, k, ⟨hk, hless⟩, herror⟩
      split at herror
      · next hover => exact ⟨k, hk, hover, hless⟩
      · cases herror
    · rintro ⟨k, hk, hover, hless⟩
      exact ⟨_, k, ⟨hk, hless⟩, if_pos hover⟩
  refine ⟨hbefore, hlast, hrefused, ?_⟩
  rintro m chunks rfl hsmall hstart hlarge hmore
  rw [fed_paced] at hmore
  obtain ⟨k, hk, hover, hbound⟩ := exists_mem_held_paced hsmall hstart hmore
  exact hrefused.2 ⟨k, hk, hover, by omega⟩

/-- A response of forty bytes. -/
def sampleResponse : Response :=
  .ofParts (Bytes.ofAscii "HTTP/1.0 200 OK\r\nContent-Length: 2") (Bytes.ofAscii "hi")

private theorem isFramed_sampleResponse : IsFramed sampleResponse := by
  apply fst_poll_eq_some_iff.2
  refine ⟨[], ?_⟩
  have hcut : cutHead (Bytes.ofAscii "HTTP/1.0 200 OK\r\nContent-Length: 2" ++ headEnd) =
      some (Bytes.ofAscii "HTTP/1.0 200 OK\r\nContent-Length: 2", []) := by decide +kernel
  have hlength : bodyLength (Response.readHead
      (Bytes.ofAscii "HTTP/1.0 200 OK\r\nContent-Length: 2")).2 =
        .ok (Bytes.ofAscii "hi").length := by rfl
  exact next?_ofParts hcut hlength none

/-- A response that is thirty bytes over the limit, in chunks of fifteen and twenty-five bytes. -/
theorem refused_iff_found_partly_sample :
    (∀ chunk ∈ [sampleResponse.raw.take 15, sampleResponse.raw.drop 15], chunk.length ≤ 25) ∧
      ∃ e, .error e ∈ (({ limit := some 10 } : Framer).use
        (paced [sampleResponse.raw.take 15, sampleResponse.raw.drop 15])).1.take
          (({ limit := some 10 } : Framer).awaited
            (paced [sampleResponse.raw.take 15, sampleResponse.raw.drop 15])
            sampleResponse).length := by
  have hsmall : ∀ chunk ∈ [sampleResponse.raw.take 15, sampleResponse.raw.drop 15],
      chunk.length ≤ 25 := by decide +kernel
  have hstream : ({ limit := some 10 } : Framer).buffer ++
      fed (paced [sampleResponse.raw.take 15, sampleResponse.raw.drop 15]) <+:
        sampleResponse.raw ++ [] := by
    rw [fed_paced]
    simp
  obtain ⟨-, -, -, hpaced⟩ := refused_iff_found_partly rfl isFramed_sampleResponse hstream
  exact ⟨hsmall, hpaced 25 _ rfl hsmall (by decide) (by decide +kernel) (by decide +kernel)⟩

/-- The same response under the same limit, fed at one go. -/
theorem limit_passed_at_once :
    ¬ ∀ (max : Int) (uses : List Use) (response : Response),
      .ok (some response) ∈ (({ limit := some max } : Framer).use uses).1 →
        (response.raw.length : Int) ≤ max := by
  intro hnever
  have hgiven : (({ limit := some 10 } : Framer).use [.feed sampleResponse.raw, .poll]).1 =
      [.ok (some sampleResponse)] := by
    rw [use, use, fst_poll_of_framed isFramed_sampleResponse (List.prefix_refl _)]
    rfl
  have hwithin := hnever 10 _ sampleResponse (hgiven ▸ List.mem_singleton.2 rfl)
  exact absurd hwithin (by decide +kernel)

end Rendezvous.Wire.Framer
