import Rendezvous.Wire.Framer

/-!
# What a framer finds

A response is found by its own bytes: whether it is there depends neither on the limit nor on the
bytes behind it. So a response that is held stays the first one however many bytes follow, and
one that is not complete yet has more bytes than are held.
-/

namespace Rendezvous.Wire

/-- What stands behind the first empty line has no part in finding it. -/
theorem cutHead_append_of_cutHead {bytes head after : Bytes}
    (h : cutHead bytes = some (head, after)) (more : Bytes) :
    cutHead (head ++ headEnd ++ more) = some (head, more) := by
  fun_induction cutHead bytes generalizing head after with
  | case1 rest =>
    cases h
    rfl
  | case2 b rest hno ih =>
    obtain ⟨⟨head', after'⟩, hcut, heq⟩ := Option.map_eq_some_iff.1 h
    simp only [Prod.mk.injEq] at heq
    obtain ⟨rfl, rfl⟩ := heq
    have hrest := eq_append_of_cutHead hcut
    -- a first byte that begins no empty line here begins none there: four bytes decide
    have hno' : ∀ tail, b = 13 → head' ++ headEnd ++ more = 10 :: 13 :: 10 :: tail → False := by
      intro tail hb htail
      rcases head' with _ | ⟨x, _ | ⟨y, _ | ⟨z, w⟩⟩⟩
      · simp [headEnd, Bytes.crlf, Bytes.cr] at htail
      · simp [headEnd, Bytes.crlf, Bytes.cr, Bytes.lf] at htail hrest
        exact hno (13 :: 10 :: after') hb (by rw [hrest, htail.1])
      · simp [headEnd, Bytes.crlf, Bytes.cr] at htail
      · simp only [List.cons_append, List.cons.injEq] at htail hrest
        exact hno _ hb (by rw [hrest, htail.1, htail.2.1, htail.2.2.1])
    rw [List.cons_append, List.cons_append, cutHead.eq_2 _ _ hno', ih hcut]
    rfl
  | case3 => cases h

/-- The response with a head and a body. -/
def Response.ofParts (head body : Bytes) : Response where
  status := statusOf (readHead head).1
  headers := (readHead head).2
  body
  raw := head ++ headEnd ++ body

namespace Framer

/-- Whether the bytes held begin with a head that announces no body. -/
def IsRuined (f : Framer) : Prop :=
  ∃ head after cause, cutHead f.buffer = some (head, after) ∧
    bodyLength (Response.readHead head).2 = .error cause

/-- Bytes that are fed are held behind the others. -/
theorem buffer_feed (f : Framer) (bytes : Bytes) : (f.feed bytes).buffer = f.buffer ++ bytes := rfl

/-- Bytes may be fed in parts. -/
theorem feed_feed (f : Framer) (a b : Bytes) : (f.feed a).feed b = f.feed (a ++ b) := by
  simp [feed]

/-- A head that announces a body is found with it, whatever stands behind. -/
theorem next?_ofParts {head body rest : Bytes}
    (hwhole : cutHead (head ++ headEnd) = some (head, []))
    (hannounced : bodyLength (Response.readHead head).2 = .ok body.length) (limit : Option Int) :
    (⟨limit, head ++ headEnd ++ body ++ rest⟩ : Framer).next? =
      .ok (some (.ofParts head body, rest)) := by
  have hcut : cutHead (head ++ headEnd ++ body ++ rest) = some (head, body ++ rest) := by
    rw [List.append_assoc _ body]
    exact cutHead_append_of_cutHead hwhole _
  have hfull : ¬ (body ++ rest).length < body.length := by
    rw [List.length_append]
    omega
  simp only [next?, hcut, hannounced, if_neg hfull, List.take_left, List.drop_left]
  rfl

/-- A response is found again by its own bytes, under any limit and with any bytes behind it. -/
theorem next?_raw_append {f : Framer} {response : Response} {rest : Bytes}
    (h : f.next? = .ok (some (response, rest))) (limit : Option Int) (more : Bytes) :
    (⟨limit, response.raw ++ more⟩ : Framer).next? = .ok (some (response, more)) := by
  rw [next?] at h
  split at h
  · exact absurd h (awaitMore_ne_some _ _)
  · next head after hcut =>
    simp only at h
    split at h
    · cases h
    · next length hlength =>
      split at h
      · exact absurd h (awaitMore_ne_some _ _)
      · next hfull =>
        simp only [Except.ok.injEq, Option.some.injEq, Prod.mk.injEq] at h
        obtain ⟨rfl, -⟩ := h
        have hbody : (after.take length).length = length := by
          rw [List.length_take]
          omega
        have hcut' := cutHead_append_of_cutHead hcut (after.take length ++ more)
        have hshort : ¬ (after.take length ++ more).length < length := by
          rw [List.length_append]
          omega
        simp only [next?, List.append_assoc] at hcut' ⊢
        rw [hcut']
        simp only [hlength, if_neg hshort]
        rw [List.take_left' hbody, List.drop_left' hbody]

/-- The first response held stays the first when more bytes come. -/
theorem next?_feed {f : Framer} {response : Response} {rest : Bytes}
    (h : f.next? = .ok (some (response, rest))) (more : Bytes) :
    (f.feed more).next? = .ok (some (response, rest ++ more)) := by
  have hfound := next?_raw_append h f.limit (rest ++ more)
  rw [← List.append_assoc, ← buffer_eq_of_next? h] at hfound
  exact hfound

/-- A response is found under every limit alike. -/
theorem next?_limit {f : Framer} {response : Response} {rest : Bytes}
    (h : f.next? = .ok (some (response, rest))) (limit : Option Int) :
    ({ f with limit } : Framer).next? = .ok (some (response, rest)) := by
  have hfound := next?_raw_append h limit rest
  rwa [← buffer_eq_of_next? h] at hfound

/-- A response that only later bytes complete has more bytes than were held. -/
theorem buffered_lt_of_next?_feed {f : Framer} {response : Response} {more rest : Bytes}
    (hnone : ∀ found, f.next? ≠ .ok (some found))
    (h : (f.feed more).next? = .ok (some (response, rest))) :
    f.buffered < response.raw.length := by
  apply Nat.lt_of_not_le
  intro hle
  have hraw : response.raw <+: f.buffer ++ more := ⟨rest, (buffer_eq_of_next? h).symm⟩
  obtain ⟨tail, htail⟩ := List.prefix_of_prefix_length_le hraw (List.prefix_append _ _) hle
  have hfound := next?_raw_append h f.limit tail
  rw [htail] at hfound
  exact hnone _ hfound

private theorem isOverLimit_feed {f : Framer} (h : f.isOverLimit) (more : Bytes) :
    (f.feed more).isOverLimit := by
  simp only [isOverLimit, Option.any_eq_true, decide_eq_true_eq] at h ⊢
  obtain ⟨limit, hmem, hlt⟩ := h
  refine ⟨limit, hmem, ?_⟩
  simp only [buffered, buffer_feed, List.length_append] at hlt ⊢
  omega

/-- A stream that cannot be framed cannot be mended by more bytes. -/
theorem isRuined_feed {f : Framer} (h : f.IsRuined) (more : Bytes) : (f.feed more).IsRuined := by
  obtain ⟨head, after, cause, hcut, hcause⟩ := h
  refine ⟨head, after ++ more, cause, ?_, hcause⟩
  rw [buffer_feed, eq_append_of_cutHead hcut, List.append_assoc]
  exact cutHead_append_of_cutHead hcut _

/-- A ruined head is an error. -/
theorem next?_of_isRuined {f : Framer} (h : f.IsRuined) : ∃ e, f.next? = .error e := by
  obtain ⟨head, after, cause, hcut, hcause⟩ := h
  exact ⟨⟨cause, f.buffered⟩, by simp only [next?, hcut, hcause]⟩

/-- More is waited for as long as the limit is not exceeded. -/
theorem awaitMore_eq_none_iff {α : Type} {f : Framer} :
    (f.awaitMore : Except FramingError (Option α)) = .ok none ↔ f.isOverLimit = false := by
  rw [awaitMore]
  split <;> simp_all

/-- Bytes that are waited on are not over the limit. -/
theorem isOverLimit_eq_false_of_next? {f : Framer} (h : f.next? = .ok none) :
    f.isOverLimit = false := by
  rw [next?] at h
  split at h
  · exact awaitMore_eq_none_iff.1 h
  · simp only at h
    split at h
    · cases h
    · split at h
      · exact awaitMore_eq_none_iff.1 h
      · cases h

private theorem isOverLimit_of_awaitMore {α : Type} {f : Framer} {e : FramingError}
    (h : (f.awaitMore : Except FramingError (Option α)) = .error e) : f.isOverLimit := by
  rw [awaitMore] at h
  split at h
  · assumption
  · cases h

/-- Bytes are refused for their head or for their number. -/
theorem isRuined_or_isOverLimit {f : Framer} {e : FramingError} (h : f.next? = .error e) :
    f.IsRuined ∨ f.isOverLimit := by
  rw [next?] at h
  split at h
  · exact .inr (isOverLimit_of_awaitMore h)
  · next head after hcut =>
    simp only at h
    split at h
    · next cause hcause => exact .inl ⟨head, after, cause, hcut, hcause⟩
    · split at h
      · exact .inr (isOverLimit_of_awaitMore h)
      · cases h

/-- Bytes that were refused are refused with more behind them, unless these complete a response
over the limit. -/
theorem next?_feed_of_error {f : Framer} {e : FramingError} (h : f.next? = .error e)
    (more : Bytes) :
    (∃ e', (f.feed more).next? = .error e') ∨
      ∃ response rest, (f.feed more).next? = .ok (some (response, rest)) ∧
        ∃ limit ∈ f.limit, limit < response.raw.length := by
  rcases isRuined_or_isOverLimit h with hruined | hover
  · exact .inl (next?_of_isRuined (isRuined_feed hruined more))
  · rcases hnext : (f.feed more).next? with e' | _ | ⟨response, rest⟩
    · exact .inl ⟨e', rfl⟩
    · have hwithin := isOverLimit_eq_false_of_next? hnext
      simp [isOverLimit_feed hover more] at hwithin
    · right
      have hlonger := buffered_lt_of_next?_feed (by simp [h]) hnext
      simp only [isOverLimit, Option.any_eq_true, decide_eq_true_eq] at hover
      obtain ⟨limit, hmem, hlt⟩ := hover
      exact ⟨response, rest, rfl, limit, hmem, by omega⟩

end Framer

end Rendezvous.Wire
