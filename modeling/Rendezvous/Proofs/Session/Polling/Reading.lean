import Rendezvous.Proofs.Host
import Rendezvous.Proofs.Wire.Delivery

/-!
# What the long poll hands over

The long poll takes the responses off every chunk that it receives and hands them over together, up
to one that announces a close. Where the bytes behind them can never become a response, those that
came with the same chunk are not handed over. So of a stream that can be framed the same responses
are handed over however it is cut, and of one that cannot an initial part of them, which is all of
them where the bytes come one by one.
-/

namespace Rendezvous

open Wire

namespace NotifyLink

variable {f : Framer} {response : Response} {rest : Bytes} {chunks : List Bytes}

/-- Whether the bytes could not be framed. -/
def Outcome.IsFailure : Outcome → Prop
  | .failed _ => True
  | _ => False

/-! ### Reading at one go -/

/-- Draining ends where the stream cannot be framed. -/
theorem drain_of_error {e : FramingError} (h : f.next? = .error e) :
    drain f = ([], .failed e, f) := by
  rw [drain]
  split <;> simp_all

/-- Draining ends where nothing complete is left. -/
theorem drain_of_none (h : f.next? = .ok none) : drain f = ([], .more, f) := by
  rw [drain]
  split <;> simp_all

/-- A response that announces a close is the last. -/
theorem drain_of_closes (h : f.next? = .ok (some (response, rest)))
    (hcloses : response.closes = true) : drain f = ([response], .closing, f.reset) := by
  rw [drain]
  split <;> simp_all

/-- A complete response that does not close is handed over, and draining goes on behind it. -/
theorem drain_of_stays (h : f.next? = .ok (some (response, rest)))
    (hstays : response.closes = false) : drain f =
      (response :: (drain { f with buffer := rest }).1, (drain { f with buffer := rest }).2) := by
  rw [drain]
  split <;> simp_all

/-- What is left after a reading that was not ended waits for more bytes. -/
theorem next?_drain (h : (drain f).2.1 = .more) : (drain f).2.2.next? = .ok none := by
  induction f using Framer.drain_induction with
  | error f e he => simp [drain_of_error he] at h
  | wait f hwait => rwa [drain_of_none hwait]
  | found f response rest hnext ih =>
    cases hcloses : response.closes with
    | true => simp [drain_of_closes hnext hcloses] at h
    | false =>
      rw [drain_of_stays hnext hcloses] at h ⊢
      exact ih h

/-- What follows is read from where the reading stopped to wait. -/
theorem drain_feed_of_more (h : (drain f).2.1 = .more) (more : Bytes) :
    drain (f.feed more) = ((drain f).1 ++ (drain ((drain f).2.2.feed more)).1,
      (drain ((drain f).2.2.feed more)).2) := by
  induction f using Framer.drain_induction with
  | error f e he => simp [drain_of_error he] at h
  | wait f hwait =>
    rw [drain_of_none hwait]
    rfl
  | found f response rest hnext ih =>
    cases hcloses : response.closes with
    | true => simp [drain_of_closes hnext hcloses] at h
    | false =>
      rw [drain_of_stays hnext hcloses] at h ⊢
      rw [drain_of_stays (Framer.next?_feed hnext more) hcloses]
      have hrest := ih h
      rw [show ({ f.feed more with buffer := rest ++ more } : Framer) =
        ({ f with buffer := rest } : Framer).feed more from rfl, hrest]
      rfl

/-- What follows a response that announces a close is dropped. -/
theorem drain_feed_of_closing (h : (drain f).2.1 = .closing) (more : Bytes) :
    drain (f.feed more) = drain f := by
  induction f using Framer.drain_induction with
  | error f e he => simp [drain_of_error he] at h
  | wait f hwait => simp [drain_of_none hwait] at h
  | found f response rest hnext ih =>
    cases hcloses : response.closes with
    | true =>
      rw [drain_of_closes hnext hcloses, drain_of_closes (Framer.next?_feed hnext more) hcloses]
      rfl
    | false =>
      rw [drain_of_stays hnext hcloses] at h ⊢
      rw [drain_of_stays (Framer.next?_feed hnext more) hcloses]
      exact congrArg (fun out ↦ (response :: out.1, out.2)) (ih h)

/-- Whether no response that is read is larger than the limit. -/
def Fits (f : Framer) : Prop :=
  ∀ max ∈ f.limit, ∀ response ∈ (drain f).1, (response.raw.length : Int) ≤ max

/-- Bytes that cannot be framed cannot be framed with more behind them, provided that the limit
refuses no response. -/
theorem drain_feed_of_failed (h : (drain f).2.1.IsFailure) (more : Bytes)
    (hfits : Fits (f.feed more)) :
    (drain (f.feed more)).1 = (drain f).1 ∧ (drain (f.feed more)).2.1.IsFailure := by
  induction f using Framer.drain_induction with
  | error f e he =>
    rcases Framer.next?_feed_of_error he more with ⟨e', he'⟩ |
      ⟨response, rest, hnext, limit, hlimit, hlt⟩
    · rw [drain_of_error he, drain_of_error he']
      exact ⟨rfl, trivial⟩
    · have hread : response ∈ (drain (f.feed more)).1 := by
        cases hcloses : response.closes with
        | true => simp [drain_of_closes hnext hcloses]
        | false => simp [drain_of_stays hnext hcloses]
      have hwithin := hfits limit hlimit response hread
      omega
  | wait f hwait =>
    rw [drain_of_none hwait] at h
    exact h.elim
  | found f response rest hnext ih =>
    have hmore := Framer.next?_feed hnext more
    cases hcloses : response.closes with
    | true =>
      rw [drain_of_closes hnext hcloses] at h
      exact h.elim
    | false =>
      rw [drain_of_stays hnext hcloses] at h ⊢
      rw [Fits, drain_of_stays hmore hcloses] at hfits
      rw [drain_of_stays hmore hcloses]
      obtain ⟨hsame, hfailed⟩ := ih h fun max hmax found hfound ↦
        hfits max hmax found (List.mem_cons_of_mem _ hfound)
      exact ⟨congrArg (response :: ·) hsame, hfailed⟩

/-! ### Reading in chunks -/

/-- The responses that are handed over of chunks, and how it ended. -/
def handed (f : Framer) : List Bytes → List Response × Outcome
  | [] => ([], .more)
  | chunk :: rest =>
    match drain (f.feed chunk) with
    | (_, .failed e, _) => ([], .failed e)
    | (responses, .closing, _) => (responses, .closing)
    | (responses, .more, f) => (responses ++ (handed f rest).1, (handed f rest).2)

/-- A chunk in which framing fails hands nothing over. -/
theorem handed_of_failed {chunk : Bytes} (h : (drain (f.feed chunk)).2.1.IsFailure)
    (rest : List Bytes) :
    (handed f (chunk :: rest)).1 = [] ∧ (handed f (chunk :: rest)).2.IsFailure := by
  rw [handed]
  rcases hread : drain (f.feed chunk) with ⟨responses, _ | _ | e, left⟩ <;> rw [hread] at h
  · exact h.elim
  · exact h.elim
  · exact ⟨rfl, trivial⟩

/-- Nothing is handed over behind a response that closes. -/
theorem handed_of_closing {chunk : Bytes} (h : (drain (f.feed chunk)).2.1 = .closing)
    (rest : List Bytes) : handed f (chunk :: rest) = ((drain (f.feed chunk)).1, .closing) := by
  rw [handed]
  rcases hread : drain (f.feed chunk) with ⟨responses, outcome, left⟩
  obtain rfl : outcome = .closing := (congrArg (·.2.1) hread).symm.trans h
  rfl

/-- A chunk that leaves the stream open hands over what it completes, and the others follow. -/
theorem handed_of_more {chunk : Bytes} (h : (drain (f.feed chunk)).2.1 = .more)
    (rest : List Bytes) : handed f (chunk :: rest) =
      ((drain (f.feed chunk)).1 ++ (handed (drain (f.feed chunk)).2.2 rest).1,
        (handed (drain (f.feed chunk)).2.2 rest).2) := by
  rw [handed]
  rcases hread : drain (f.feed chunk) with ⟨responses, outcome, left⟩
  obtain rfl : outcome = .more := (congrArg (·.2.1) hread).symm.trans h
  rfl

/-- Of a reading that goes on where another one stopped, no response is larger than the limit. -/
theorem Fits.of_more {more : Bytes} (hfits : Fits (f.feed more)) (h : (drain f).2.1 = .more) :
    Fits ((drain f).2.2.feed more) := by
  have hlimit : ((drain f).2.2.feed more).limit = f.limit := limit_drain f
  intro max hmax response hmem
  rw [hlimit] at hmax
  rw [Fits, drain_feed_of_more h] at hfits
  exact hfits max hmax response (List.mem_append_right _ hmem)

/-- What is handed over of chunks is what the whole stream holds, or an initial part of it where the
stream cannot be framed. A framer that does not wait must be fed something first. -/
theorem handed_cases (hready : chunks ≠ [] ∨ f.next? = .ok none)
    (hfits : Fits (f.feed chunks.flatten)) :
    handed f chunks =
        ((drain (f.feed chunks.flatten)).1, (drain (f.feed chunks.flatten)).2.1) ∨
      (handed f chunks).1 <+: (drain (f.feed chunks.flatten)).1 ∧
        (handed f chunks).2.IsFailure ∧ (drain (f.feed chunks.flatten)).2.1.IsFailure := by
  induction chunks generalizing f with
  | nil =>
    have hfeed : f.feed [] = f := by simp [Framer.feed]
    rw [List.flatten_nil, hfeed, drain_of_none (hready.resolve_left (by simp))]
    exact .inl rfl
  | cons chunk rest ih =>
    rw [List.flatten_cons, ← Framer.feed_feed] at hfits ⊢
    cases hout : (drain (f.feed chunk)).2.1 with
    | more =>
      rw [handed_of_more hout, drain_feed_of_more hout]
      rcases ih (.inr (next?_drain hout)) (hfits.of_more hout) with hall | ⟨hpart, hfailed⟩
      · exact .inl (by rw [hall])
      · exact .inr ⟨(List.prefix_append_right_inj _).2 hpart, hfailed⟩
    | closing =>
      rw [handed_of_closing hout, drain_feed_of_closing hout, hout]
      exact .inl rfl
    | failed e =>
      have hfailed : (drain (f.feed chunk)).2.1.IsFailure := hout ▸ trivial
      obtain ⟨hnone, hlost⟩ := handed_of_failed hfailed rest
      refine .inr ⟨?_, hlost, (drain_feed_of_failed hfailed _ hfits).2⟩
      rw [hnone]
      exact List.nil_prefix

/-- Of a stream that can be framed, everything is handed over. -/
theorem handed_of_framed {stream : Bytes} (c : Cutting stream) (hfits : Fits (f.feed stream))
    (hframed : ¬ (drain (f.feed stream)).2.1.IsFailure) :
    handed f c.chunks = ((drain (f.feed stream)).1, (drain (f.feed stream)).2.1) := by
  have hcases := handed_cases (f := f) (.inl c.ne_nil)
  rw [c.flatten_chunks] at hcases
  exact (hcases hfits).resolve_right fun hpart ↦ hframed hpart.2.2

/-- Of a stream that cannot be framed, an initial part of what it holds is handed over. -/
theorem handed_of_unframed {stream : Bytes} (c : Cutting stream) (hfits : Fits (f.feed stream))
    (hfailed : (drain (f.feed stream)).2.1.IsFailure) :
    (handed f c.chunks).1 <+: (drain (f.feed stream)).1 ∧ (handed f c.chunks).2.IsFailure := by
  have hcases := handed_cases (f := f) (.inl c.ne_nil)
  rw [c.flatten_chunks] at hcases
  rcases hcases hfits with hall | ⟨hpart, hlost, -⟩
  · rw [hall]
    exact ⟨List.prefix_refl _, hfailed⟩
  · exact ⟨hpart, hlost⟩

/-! ### Reading byte by byte -/

/-- A stream one byte at a time, after an empty chunk. -/
def bytewise (stream : Bytes) : Cutting stream where
  chunks := [] :: stream.map fun b ↦ [b]
  ne_nil := List.cons_ne_nil _ _
  flatten_chunks := by
    rw [List.flatten_cons, List.nil_append, ← List.flatMap_def, List.flatMap_singleton']

/-- A response is complete with its last byte. -/
theorem rest_eq_nil {b : UInt8} (hwait : f.next? = .ok none)
    (h : (f.feed [b]).next? = .ok (some (response, rest))) : rest = [] := by
  have hlonger := Framer.buffered_lt_of_next?_feed (by simp [hwait]) h
  have hlength := congrArg List.length (Framer.buffer_eq_of_next? h)
  rw [Framer.buffer_feed, List.length_append, List.length_append] at hlength
  apply List.length_eq_zero_iff.1
  rw [Framer.buffered] at hlonger
  simp only [List.length_singleton] at hlength
  omega

/-- An empty framer waits, unless its limit is negative. -/
theorem next?_of_empty (hlimit : ∀ max ∈ f.limit, 0 ≤ max) :
    ({ f with buffer := [] } : Framer).next? = .ok none := by
  show ({ f with buffer := [] } : Framer).awaitMore = .ok none
  apply Framer.awaitMore_eq_none_iff.2
  apply Bool.eq_false_iff.2
  intro hover
  obtain ⟨max, hmax, hlt⟩ := (Option.any_eq_true _ _).1 hover
  exact absurd (hlimit max hmax) (Int.not_le.2 (of_decide_eq_true hlt))

/-- Byte by byte, everything that a stream holds is handed over. -/
theorem handed_bytes {stream : Bytes} (hwait : f.next? = .ok none) (hfits : Fits (f.feed stream)) :
    (handed f (stream.map fun b ↦ [b])).1 = (drain (f.feed stream)).1 := by
  induction stream generalizing f with
  | nil =>
    have hfeed : f.feed [] = f := by simp [Framer.feed]
    rw [hfeed, drain_of_none hwait]
    rfl
  | cons b stream ih =>
    have hsplit : f.feed (b :: stream) = (f.feed [b]).feed stream := by
      rw [Framer.feed_feed]
      rfl
    rw [hsplit] at hfits ⊢
    rw [List.map_cons]
    rcases hnext : (f.feed [b]).next? with e | _ | ⟨response, rest⟩
    · have hfailed : (drain (f.feed [b])).2.1.IsFailure := by
        rw [drain_of_error hnext]
        trivial
      rw [(handed_of_failed hfailed _).1, (drain_feed_of_failed hfailed _ hfits).1,
        drain_of_error hnext]
    · have hmore : (drain (f.feed [b])).2.1 = .more := by rw [drain_of_none hnext]
      have hrest := hfits.of_more hmore
      rw [handed_of_more hmore, drain_feed_of_more hmore]
      rw [drain_of_none hnext] at hrest ⊢
      exact ih hnext hrest
    · cases rest_eq_nil hwait hnext
      cases hcloses : response.closes with
      | true =>
        have hclosing : (drain (f.feed [b])).2.1 = .closing := by
          rw [drain_of_closes hnext hcloses]
        rw [handed_of_closing hclosing, drain_feed_of_closing hclosing]
      | false =>
        -- what is left is empty, and waits since the limit is no less than the response
        have hempty : ({ f.feed [b] with buffer := [] } : Framer).next? = .ok none := by
          apply next?_of_empty
          intro max hmax
          have hread : response ∈ (drain ((f.feed [b]).feed stream)).1 := by
            rw [drain_of_stays (Framer.next?_feed hnext stream) hcloses]
            exact List.mem_cons_self
          exact Int.le_trans (Int.natCast_nonneg _) (hfits max hmax response hread)
        have hread : drain (f.feed [b]) =
            ([response], .more, { f.feed [b] with buffer := [] }) := by
          rw [drain_of_stays hnext hcloses, drain_of_none hempty]
        have hmore : (drain (f.feed [b])).2.1 = .more := by rw [hread]
        have hrest := hfits.of_more hmore
        rw [handed_of_more hmore, drain_feed_of_more hmore]
        rw [hread] at hrest ⊢
        exact congrArg ([response] ++ ·) (ih hempty hrest)

/-- Byte by byte, everything is handed over that is found at once. -/
theorem handed_bytewise {stream : Bytes} (hempty : f.buffer = []) (hfits : Fits (f.feed stream)) :
    (handed f (bytewise stream).chunks).1 = (drain (f.feed stream)).1 := by
  have hfeed : f.feed [] = f := by simp [Framer.feed]
  rcases hnext : f.next? with e | _ | ⟨response, rest⟩
  · have hfailed : (drain (f.feed [])).2.1.IsFailure := by
      rw [hfeed, drain_of_error hnext]
      trivial
    have hlost := drain_feed_of_failed hfailed stream (by rwa [hfeed])
    rw [hfeed, drain_of_error hnext] at hlost
    rw [bytewise, (handed_of_failed hfailed _).1, hlost.1]
  · have hread : drain (f.feed []) = ([], .more, f) := by rw [hfeed, drain_of_none hnext]
    have hmore : (drain (f.feed [])).2.1 = .more := by rw [hread]
    rw [bytewise, handed_of_more hmore, hread]
    exact handed_bytes hnext hfits
  · have hlength := congrArg List.length (Framer.buffer_eq_of_next? hnext)
    have hfour := Framer.four_le_length_of_next? hnext
    rw [hempty, List.length_append, List.length_nil] at hlength
    omega

end NotifyLink

end Rendezvous
